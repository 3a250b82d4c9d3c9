import ChatMicroservices.JsonRoundTrip
import ChatMicroservices.MessageAnnouncement
import ChatMicroservices.NotificationSettlement

/-!
# What a notification shows of a message

A notification is written by the chat service as a JSON text and read by the notification
service. The envelope of the message is one member of the text, and of all the effects of the
consumer only the data of a push notification depend on it.
-/

namespace ChatMicroservices.NotificationPrivacy
open JavaScriptValues EffectPrograms MessagesTable MessageNotification MessageAnnouncement

/-- A member of an object that is written; `undefined` and functions are left out. -/
def member (key : String) : Value → List (JsString × Json)
  | .json v => [(js key, v)]
  | .undefined | .function => []

/-- The members before the envelope. -/
def leadingMembers (payload : ChatEffects.NotificationPayload) : List (JsString × Json) :=
  (js "type", .str (js payload.messageType)) :: member "userId" payload.userId ++
    [(js "message", .str payload.message), (js "from", .str payload.sender),
      (js "fromName", .str payload.fromName), (js "isEncrypted", .bool payload.isEncrypted)]

def envelopeMember (payload : ChatEffects.NotificationPayload) : List (JsString × Json) :=
  payload.envelope.toList.map fun envelope => (js "envelope", .str envelope)

/-- The members after the envelope. -/
def contactMembers (payload : ChatEffects.NotificationPayload) : List (JsString × Json) :=
  payload.userEmail.toList.flatMap (member "userEmail") ++
    payload.userToken.toList.flatMap (member "userToken")

/-- `JSON.stringify(notificationPayload)` -/
def notificationText (payload : ChatEffects.NotificationPayload) : JsString :=
  JSON.stringify (.obj (leadingMembers payload ++ envelopeMember payload ++
    contactMembers payload))

/-- Objects that differ at most in the member `envelope`. -/
def SameOutside (v w : Json) : Prop :=
  ∃ fields gields, v = .obj fields ∧ w = .obj gields ∧
    ∀ key, key ≠ js "envelope" → lookup key fields = lookup key gields

theorem lookup_assignAll {key : JsString} {fields gields : List (JsString × Json)}
    (h : lookup key fields = lookup key gields) (ms : List (JsString × Json)) :
    lookup key (JSON.assignAll ms fields) = lookup key (JSON.assignAll ms gields) := by
  induction ms generalizing fields gields with
  | nil => exact h
  | cons m ms ih =>
    have hassigned : lookup key (assign m.1 m.2 fields) = lookup key (assign m.1 m.2 gields) := by
      by_cases hkey : m.1 = key
      · rw [hkey, lookup_assign_self, lookup_assign_self]
      · rw [lookup_assign_of_ne hkey, lookup_assign_of_ne hkey, h]
    exact ih hassigned

/-- Notifications that differ at most in their envelopes are read as objects that do. -/
theorem notificationText_parses {p q : ChatEffects.NotificationPayload}
    (h : p = { q with envelope := p.envelope }) :
    ∃ v w, JSON.parse (notificationText p) = .ok v ∧ JSON.parse (notificationText q) = .ok w ∧
      SameOutside v w := by
  obtain ⟨before, hbefore⟩ := JSON.members_partners (leadingMembers q)
  obtain ⟨behind, hbehind⟩ := JSON.members_partners (contactMembers q)
  have hmember : ∀ payload,
      JSON.ReadsMembers (envelopeMember payload) (envelopeMember payload) := by
    intro payload
    rw [envelopeMember]
    cases payload.envelope with
    | none => exact .nil
    | some envelope => exact .cons ⟨rfl, JSON.reads_quote envelope⟩ .nil
  have hreads : ∀ payload : ChatEffects.NotificationPayload,
      leadingMembers payload = leadingMembers q → contactMembers payload = contactMembers q →
      JSON.parse (notificationText payload) =
        .ok (.obj (JSON.assignAll (before ++ envelopeMember payload ++ behind) [])) := by
    intro payload hl hc
    rw [notificationText, hl, hc]
    have hmembers := List.rel_append (List.rel_append hbefore (hmember payload)) hbehind
    exact (JSON.reads_object hmembers).parse
  refine ⟨_, _, hreads p (h ▸ rfl) (h ▸ rfl), hreads q rfl rfl, _, _, rfl, rfl, ?_⟩
  intro key hkey
  have hskip : ∀ (payload : ChatEffects.NotificationPayload) (fields : List (JsString × Json)),
      lookup key (JSON.assignAll (envelopeMember payload) fields) = lookup key fields := by
    intro payload fields
    rw [envelopeMember]
    cases payload.envelope with
    | none => rfl
    | some envelope => exact lookup_assign_of_ne (Ne.symm hkey) _ _
  simp only [JSON.assignAll, List.foldl_append]
  exact lookup_assignAll ((hskip p _).trans (hskip q _).symm) behind

section Consumer
open NotificationHandlers NotificationSettlement

variable {σ α β : Type} {exec : (op : Op) → σ → Ans op × σ}

/-- An effect of the consumer, without the data of a push notification. How the message is
settled is left out: it may depend on whether the data could be sent. -/
def exposed : Op → Option Op
  | .ack | .nack _ => none
  | .send payload => some (.send { payload with data := [] })
  | op => some op

/-- What a run stores, mails and shows, and whatever else it does outside. -/
def exposure (t : List (Op × σ)) : List Op := t.filterMap fun e => exposed e.1

theorem exposure_append (t t' : List (Op × σ)) :
    exposure (t ++ t') = exposure t ++ exposure t' := List.filterMap_append

/-- The program only settles the message. -/
abbrev Settlement (p : Handler α) : Prop := p.Issues fun op => IsSettlement op = true

theorem exposure_of_settlement {p : Handler α} (hp : Settlement p) (s : σ) :
    exposure (p.trace exec s) = [] := by
  rw [exposure, List.filterMap_eq_nil_iff]
  rintro ⟨op, t⟩ hop
  have hsettles := hp.mem_trace exec hop
  cases op with
  | ack => rfl
  | nack requeue => rfl
  | _ => cases hsettles

theorem dropMessage_settlement : Settlement dropMessage :=
  Program.Issues.tryCatch ⟨rfl, fun _ => trivial⟩ fun _ => trivial

theorem exposure_tryCatch (p : Handler α) {h : JsError → Handler α} (hh : ∀ e, Settlement (h e))
    (s : σ) : exposure ((p.tryCatch h).trace exec s) = exposure (p.trace exec s) := by
  rw [Program.trace_tryCatch, exposure_append]
  rcases p.run exec s with ⟨r, t⟩
  cases r with
  | ok a => exact List.append_nil _
  | error e =>
    have hnil : exposure ((h e).trace exec t) = [] := exposure_of_settlement (hh e) t
    rw [hnil, List.append_nil]

/-- Programs that go on alike after the same beginning expose the same. -/
theorem exposure_bind_congr (p : Handler α) {f g : α → Handler β}
    (h : ∀ a s, exposure ((f a).trace exec s) = exposure ((g a).trace exec s)) (s : σ) :
    exposure ((p.bind f).trace exec s) = exposure ((p.bind g).trace exec s) := by
  rw [Program.trace_bind, Program.trace_bind, exposure_append, exposure_append]
  rcases p.run exec s with ⟨r, t⟩
  cases r with
  | ok a => exact congrArg _ (h a t)
  | error e => rfl

theorem exposure_settling (p : Handler Unit) (s : σ) :
    exposure ((settling p).trace exec s) = exposure (p.trace exec s) := by
  rw [settling, exposure_tryCatch _ fun _ => dropMessage_settlement, Program.trace_bind,
    exposure_append]
  have hack : Settlement (Program.attempt (perform .ack)) := ⟨rfl, fun _ => trivial⟩
  rcases p.run exec s with ⟨r, t⟩
  cases r with
  | ok a =>
    have hnil : exposure ((Program.attempt (perform .ack)).trace exec t) = [] :=
      exposure_of_settlement hack t
    rw [Program.resumeTrace_ok, hnil, List.append_nil]
  | error e => exact List.append_nil _

theorem sendPushNotification_exposure (token message : Value)
    (data data' : List (JsString × Value)) (s : σ) :
    exposure ((sendPushNotification token message data).trace exec s) =
      exposure ((sendPushNotification token message data').trace exec s) := by
  refine exposure_bind_congr _ (fun ready t => ?_) s
  cases ready with
  | false => rfl
  | true =>
    have hsilent : ∀ e : JsError, Settlement (pure () : Handler Unit) := fun _ => trivial
    rw [if_pos rfl, if_pos rfl, logged, logged, exposure_tryCatch _ hsilent,
      exposure_tryCatch _ hsilent]
    rfl

/-- Payloads that agree on all the fields that are read besides `envelope`. -/
def FieldsAgree (v w : Value) : Prop :=
  ∀ key, js key ≠ js "envelope" → v.field key = w.field key

theorem SameOutside.fieldsAgree {v w : Json} (h : SameOutside v w) :
    FieldsAgree (.json v) (.json w) := by
  obtain ⟨fields, gields, rfl, rfl, hlookup⟩ := h
  intro key hkey
  rw [Value.field, Value.field, hlookup (js key) hkey]

variable {v w : Value} (h : FieldsAgree v w)
include h

theorem sendPush_exposure (s : σ) :
    exposure ((sendPush v).trace exec s) = exposure ((sendPush w).trace exec s) := by
  have htoken := h "userToken" (by decide)
  have hencrypted := h "isEncrypted" (by decide)
  have hmessage := h "message" (by decide)
  rw [sendPush, sendPush, htoken, hencrypted, hmessage]
  split
  · rfl
  · split
    · exact sendPushNotification_exposure _ _ _ _ s
    · rfl

theorem sendMessageEmail_agrees (config : Config) (messageTpl : JsString) :
    sendMessageEmail config v messageTpl = sendMessageEmail config w messageTpl := by
  have hemail := h "userEmail" (by decide)
  have hencrypted := h "isEncrypted" (by decide)
  have hmessage := h "message" (by decide)
  have hname := h "fromName" (by decide)
  rw [sendMessageEmail, sendMessageEmail, hemail, hencrypted, hmessage, hname]

theorem messageRow_agrees (title : JsString) : messageRow v title = messageRow w title := by
  have huser := h "userId" (by decide)
  have hencrypted := h "isEncrypted" (by decide)
  have hmessage := h "message" (by decide)
  rw [messageRow, messageRow, huser, hencrypted, hmessage]

theorem notifyMessage_exposure (config : Config) (s : σ) :
    exposure ((notifyMessage config v).trace exec s) =
      exposure ((notifyMessage config w).trace exec s) := by
  have hname := h "fromName" (by decide)
  have huser := h "userId" (by decide)
  have htoken := h "userToken" (by decide)
  have hemail := h "userEmail" (by decide)
  rw [notifyMessage, notifyMessage, hname, huser, htoken, hemail]
  refine exposure_bind_congr _ (fun title s => ?_) s
  rw [messageRow_agrees h]
  refine exposure_bind_congr _ (fun _ s => ?_) s
  refine exposure_bind_congr _ (fun online s => ?_) s
  refine exposure_bind_congr _ (fun messageTpl s => ?_) s
  split
  · exact sendPush_exposure h s
  · rw [sendMessageEmail_agrees h]

theorem handleUserRegistered_agrees (config : Config) :
    handleUserRegistered config v = handleUserRegistered config w := by
  have hemail := h "userEmail" (by decide)
  have huser := h "userId" (by decide)
  have hmessage := h "message" (by decide)
  have hrow : welcomeRow v = welcomeRow w := by
    rw [welcomeRow, welcomeRow, welcomeMessage, welcomeMessage, huser, hmessage]
  have hmail : sendWelcomeEmail config v = sendWelcomeEmail config w := by
    rw [sendWelcomeEmail, sendWelcomeEmail, welcomeMessage, welcomeMessage, hemail, hmessage]
  rw [handleUserRegistered, handleUserRegistered, hrow, hmail, hemail]

theorem dispatch_exposure (config : Config) (s : σ) :
    exposure ((dispatch config v).trace exec s) =
      exposure ((dispatch config w).trace exec s) := by
  have htype := h "type" (by decide)
  rw [dispatch, dispatch, htype, handleUserRegistered_agrees h, handleMessageReceived_eq,
    handleMessageReceived_eq]
  split
  · rw [exposure_settling, exposure_settling]
    exact notifyMessage_exposure h config s
  · rfl

omit h

/-- Texts that are read as objects with the same members besides `envelope`. -/
theorem onNotification_exposure (config : Config) {text text' : JsString} {v w : Json}
    (hv : JSON.parse text = .ok v) (hw : JSON.parse text' = .ok w) (h : SameOutside v w) (s : σ) :
    exposure ((onNotification config text).trace exec s) =
      exposure ((onNotification config text').trace exec s) := by
  have hagree := h.fieldsAgree
  have htype := hagree "type" (by decide)
  obtain ⟨fields, gields, rfl, rfl, -⟩ := h
  have hget : ∀ fields, (Value.json (.obj fields)).destructure "payload" "type" =
      .ok ((Value.json (.obj fields)).field "type") := fun _ => rfl
  rw [onNotification_eq, onNotification_eq, exposure_tryCatch _ fun _ => dropMessage_settlement,
    exposure_tryCatch _ fun _ => dropMessage_settlement]
  simp only [received, hv, hw, hget, htype, Program.bind_eq, Program.bind_ok, Program.bind_assoc]
  refine exposure_bind_congr _ (fun _ s => ?_) s
  refine exposure_bind_congr _ (fun _ s => ?_) s
  exact dispatch_exposure hagree config s

end Consumer

section Publications
open ChatEffects SendMessageRuns SocketHandlers MessageController SendRequestRuns
open HandlerFootprints

variable {τ : Type} (repo : Repository τ) (here : Surroundings)

def sender : Submission → AuthUser
  | .rest user _ | .websocket user _ _ => user

/-- The message of the request was accepted: its row was inserted. -/
def Stores (a : Submission) (w : World τ) : Prop :=
  ∃ id row w' saved, (.insert id row, w') ∈ a.trace repo here w ∧
    (repo.insert id row w'.db).1 = .ok saved

def payloadOf : Op → Option NotificationPayload
  | .publish payload => some payload
  | _ => none

def publications (ops : List Op) : List NotificationPayload := ops.filterMap payloadOf

/-- The texts that reach the notifications queue. -/
def deliveries (t : List (Op × World τ)) : List JsString :=
  if here.channel .notifications = .working then (publications (effects t)).map notificationText
  else []

/-- The notification of a stored message, if its receiver is offline. -/
def announcement (user : AuthUser) (receiverId : Value) (trimmed : JsString) :
    List NotificationPayload :=
  if here.isOnline receiverId then []
  else [published here (notification user receiverId trimmed)]

theorem publications_received (user : AuthUser) (receiverId : Value) (trimmed : JsString) :
    publications (receivedEffects here (notification user receiverId trimmed)) =
      announcement here user receiverId trimmed := by
  rw [receivedEffects, announcement]
  by_cases honline : here.isOnline receiverId = true
  · simp [publications, payloadOf, notification, honline]
  · have hlookup : publications (lookupEffects here receiverId) = [] := by
      rw [lookupEffects]
      split
      · rfl
      · rfl
    have honline' : ¬ here.isOnline (notification user receiverId trimmed).receiverId = true :=
      honline
    rw [if_neg honline', if_neg honline, publications, ← List.singleton_append,
      List.filterMap_append, List.filterMap_append]
    exact congrArg (· ++ _) hlookup

theorem rest_publications {user : AuthUser} {body : Value} {w : World τ}
    (h : Stores repo here (.rest user body) w) :
    ∃ trimmed, publications (effects ((sendMessage user body).trace (exec repo here) w)) =
      announcement here user (body.field "receiverId") trimmed := by
  obtain ⟨id, row, w', saved, hmem, hsaved⟩ := h
  rw [Submission.trace] at hmem
  cases hcheck : checkBody user body with
  | error e =>
    rw [sendMessage_rejected hcheck] at hmem
    cases hmem
  | ok trimmed =>
    cases hi : (repo.insert none
        (encryptedMessage user.id (body.field "receiverId") trimmed) w.db).1 with
    | error e =>
      rw [sendMessage_checked hcheck, storeAndAnswer_trace, hi] at hmem
      cases List.mem_singleton.mp hmem
      rw [hi] at hsaved
      cases hsaved
    | ok stored =>
      refine ⟨trimmed, ?_⟩
      rw [sendMessage_stored repo here hcheck hi]
      exact publications_received here _ _ _

/-- The failure of an event publishes nothing. -/
theorem payloadOf_of_failure (op : Op) (h : FailureFootprint op) : payloadOf op = none := by
  cases op with
  | publish payload => cases h
  | _ => rfl

theorem websocket_publications {user : AuthUser} {data ack : Value} {w : World τ}
    (h : Stores repo here (.websocket user data ack) w) :
    ∃ trimmed, publications (effects ((handleSendMessage user data ack).trace
      (exec repo here) w)) = announcement here user (data.field "receiverId") trimmed := by
  obtain ⟨id, row, w', saved, hmem, hsaved⟩ := h
  have htry : (.insert id row, w') ∈ (trySendMessage user data ack).trace (exec repo here) w := by
    rcases mem_handleSendMessage_trace hmem with hmem | hfailure
    · exact hmem
    · cases hfailure
  rw [publications, observed_handleSendMessage repo here user payloadOf_of_failure]
  rcases trySendMessage_cases user data ack with
    ⟨-, hrun⟩ | ⟨error, -, hrun⟩ | ⟨trimmed, -, hrun⟩ | ⟨trimmed, -, hrun⟩
  all_goals rw [hrun] at htry ⊢
  · cases htry
  · rw [acknowledgeWith_trace] at htry
    obtain ⟨op, hop, heq⟩ := List.mem_map.mp htry
    rw [mem_ackEffects hop] at heq
    cases heq
  · have hissues : (resendAndDeliver user data trimmed ack).Issues
        fun op => op ≠ .insert id row :=
      resendAndDeliver_issues user data trimmed ack (by simp) (by simp) (by simp) (by simp)
        (by simp)
    exact absurd rfl (hissues.mem_trace (exec repo here) htry)
  · refine ⟨trimmed, ?_⟩
    rw [storeAndDeliver_trace] at htry
    cases hi : (repo.insert none
        (encryptedMessage user.id (data.field "receiverId") trimmed) w.db).1 with
    | error e =>
      rw [hi] at htry
      obtain ⟨⟨rfl, rfl⟩, rfl⟩ := by simpa [storeTrace] using htry
      rw [hi] at hsaved
      cases hsaved
    | ok stored =>
      have hdelivery : (deliver user (data.field "receiverId") stored ack).Issues
          fun op => payloadOf op = none :=
        deliver_issues user _ stored ack rfl rfl (fun _ => rfl) fun _ => rfl
      rw [observed_store repo here user hdelivery hi]
      exact publications_received here _ _ _

theorem submission_publications {a : Submission} {w : World τ} (h : Stores repo here a w) :
    ∃ trimmed, publications (effects (a.trace repo here w)) =
      announcement here (sender a) a.receiverId trimmed := by
  cases a with
  | rest user body => exact rest_publications repo here h
  | websocket user data ack => exact websocket_publications repo here h

/-- What the notifications of a request lead the notification service to do, from a state `s`. -/
def consequences {σ : Type} (a : Submission) (w : World τ) (config : NotificationHandlers.Config)
    (exec : (op : NotificationHandlers.Op) → σ → NotificationHandlers.Ans op × σ) (s : σ) :
    List (List NotificationHandlers.Op) :=
  (deliveries here (a.trace repo here w)).map fun text =>
    exposure ((NotificationHandlers.onNotification config text).trace exec s)

/-- The presence of a receiver, the contact details that are found, and the queue are the same
for two messages. -/
structure SameCircumstances (here there : Surroundings) (receiverId : Value) : Prop where
  presence : here.isOnline receiverId = there.isOnline receiverId
  contact : (callbackArgument here.correlationId here.replies).field "email" =
    (callbackArgument there.correlationId there.replies).field "email"
  queue : here.channel .notifications = there.channel .notifications

/-- Notifications of two messages differ in their envelopes only. -/
theorem published_same {here there : Surroundings} {receiverId : Value}
    (h : SameCircumstances here there receiverId) (user : AuthUser) (t t' : JsString) :
    published here (notification user receiverId t) =
      { published there (notification user receiverId t') with
        envelope := (published here (notification user receiverId t)).envelope } := by
  rw [published, published, notificationPayload, notificationPayload, notifyArgs, notifyArgs,
    h.contact]
  rfl

/-- Two accepted messages of one sender to one receiver, over either path, lead the
notification service to the same rows, e-mails and push notifications: only the data of a push
notification can depend on the message. -/
theorem content_confined {σ : Type} {there : Surroundings} {a b : Submission} {w w' : World τ}
    (ha : Stores repo here a w) (hb : Stores repo there b w') (hsender : sender a = sender b)
    (hreceiver : a.receiverId = b.receiverId) (h : SameCircumstances here there a.receiverId)
    (config : NotificationHandlers.Config)
    (exec : (op : NotificationHandlers.Op) → σ → NotificationHandlers.Ans op × σ) (s : σ) :
    consequences repo here a w config exec s = consequences repo there b w' config exec s := by
  obtain ⟨t, hpub⟩ := submission_publications repo here ha
  obtain ⟨t', hpub'⟩ := submission_publications repo there hb
  rw [consequences, consequences, deliveries, deliveries, hpub, hpub', ← hsender, ← hreceiver,
    announcement, announcement, h.queue, h.presence]
  split
  · split
    · rfl
    · obtain ⟨v, v', hv, hv', hsame⟩ :=
        notificationText_parses (published_same h (sender a) t t')
      exact congrArg (· :: []) (onNotification_exposure config hv hv' hsame s)
  · rfl

theorem stores_rest {user : AuthUser} {body : Value} {trimmed : JsString} {saved : Message}
    {w : World τ} (hbody : ¬ body.Nullish)
    (hreceiver : validateReceiver user.id (body.field "receiverId") = .ok ())
    (hcontent : validateContent (body.field "message") = .ok trimmed)
    (hi : (repo.insert none (encryptedMessage user.id (body.field "receiverId") trimmed) w.db).1 =
      .ok saved) : Stores repo here (.rest user body) w := by
  refine ⟨_, _, w, saved, ?_, hi⟩
  rw [Submission.trace, sendMessage_checked (checkBody_eq_ok.mpr ⟨hbody, hreceiver, hcontent⟩),
    storeAndAnswer_trace]
  exact List.mem_cons_self ..

theorem stores_websocket {user : AuthUser} {data : Value} (ack : Value) {trimmed : JsString}
    {saved : Message} {w : World τ} (hv : verdict user data = .store trimmed)
    (hi : (repo.insert none (encryptedMessage user.id (data.field "receiverId") trimmed) w.db).1 =
      .ok saved) : Stores repo here (.websocket user data ack) w := by
  refine ⟨_, _, w, saved, ?_, hi⟩
  rw [Submission.trace, handleSendMessage, Program.trace_tryCatch,
    trySendMessage_eq user ack (not_nullish_of_store hv), hv, afterVerdict, storeAndDeliver_trace]
  exact List.mem_append_left _ (List.mem_cons_self ..)

/-- The receiver is offline, and the user service knows an address. -/
def reachable : Surroundings :=
  { quiet with replies := [⟨js "c1", some (.obj [(js "email", .str (js "bob@example.com"))])⟩] }

def restBody : Value :=
  .json (.obj [(js "receiverId", .str receiver), (js "message", .str envelope)])

def otherEnvelope : JsString := js "\x7b\"__encrypted\":true,\"body\":\"aGk=\"\x7d"

def socketData : Value :=
  .json (.obj [(js "senderId", .str alice.id), (js "receiverId", .str receiver),
    (js "message", .str otherEnvelope)])

def storedOther : Message :=
  (encryptedMessage alice.id (.json (.str receiver)) otherEnvelope).toRow (js "m1") 0

/-- The answers of a notification service in which everything works. -/
def working : (op : NotificationHandlers.Op) → Unit → NotificationHandlers.Ans op × Unit
  | .getRepository, _ | .countConsumed _, _ | .save _, _ | .send _, _ => (.ok (), ())
  | .sendMail _, _ | .ack, _ | .nack _, _ => (.ok (), ())
  | .isUserOnline _, _ | .initializeFirebase, _ => (false, ())
  | .readTemplate _, _ => (.ok (js "\x7b\x7bTITLE\x7d\x7d: \x7b\x7bBODY\x7d\x7d"), ())
  | .getFullYear, _ => (2024, ())

theorem requests_confined :
    consequences (postgres calm) reachable (.rest alice restBody) World.empty
        NotificationSettlement.someConfig working () =
      consequences (postgres calm) reachable (.websocket alice socketData .undefined) World.empty
        NotificationSettlement.someConfig working () := by
  have hbody : ¬ restBody.Nullish := by decide
  have hreceiver : validateReceiver alice.id (restBody.field "receiverId") = .ok () := by
    decide +kernel
  have hcontent : validateContent (restBody.field "message") = .ok envelope := by decide +kernel
  have hi : ((postgres calm).insert none (encryptedMessage alice.id (restBody.field "receiverId")
      envelope) World.empty.db).1 = .ok storedRow := by decide +kernel
  have hv : verdict alice socketData = .store otherEnvelope := by decide +kernel
  have hi' : ((postgres calm).insert none (encryptedMessage alice.id
      (socketData.field "receiverId") otherEnvelope) World.empty.db).1 = .ok storedOther := by
    decide +kernel
  have hsame : (Submission.rest alice restBody).receiverId =
      (Submission.websocket alice socketData .undefined).receiverId := by decide +kernel
  exact content_confined (postgres calm) reachable
    (stores_rest (postgres calm) reachable hbody hreceiver hcontent hi)
    (stores_websocket (postgres calm) reachable .undefined hv hi') rfl hsame ⟨rfl, rfl, rfl⟩
    NotificationSettlement.someConfig working ()

example : consequences (postgres calm) reachable (.rest alice restBody) World.empty
    NotificationSettlement.someConfig working () =
      [[.getRepository, .countConsumed (.json (.str (js "MESSAGE_RECEIVED"))),
        .save ⟨.json (.str receiver), .message, js "New message from alice",
          .json (.str (js "[Encrypted message]")), false⟩,
        .isUserOnline (.json (.str receiver)), .readTemplate (js "message.html"), .getFullYear,
        .sendMail ⟨.brevo, js "chat@example.com", .json (.str (js "bob@example.com")),
          js "New message from alice", js ("New message from alice: " ++
            "You have a new encrypted message. Open the app to view it.")⟩]] := by
  decide +kernel

end Publications

end ChatMicroservices.NotificationPrivacy

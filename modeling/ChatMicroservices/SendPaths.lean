import ChatMicroservices.MessageAnnouncement
import ChatMicroservices.MessageValidation

/-!
# The two send paths

The same message over `POST /send` and over the `sendMessage` event. Both paths check the
envelope alike. The route also wants the receiver to be a UUID, which it trims first, and
measures the message before it is trimmed; the event takes every receiver the database takes.
-/

namespace ChatMicroservices.SendPaths
open JavaScriptValues EffectPrograms MessagesTable ChatEffects MessageNotification
open SocketHandlers SendMessageRuns HandlerFootprints MessageController MessageAnnouncement
open MessageValidation SendRequestRuns
open PrekeyValidation (lengthInCharacters)

/-- The message is an encrypted envelope of a legal length, possibly between white space. -/
def Sealed (message : JsString) : Prop := EncryptedText (trim message)

theorem ne_nil_of_sealed {message : JsString} (h : Sealed message) : message ≠ [] := by
  rintro rfl
  exact absurd h.nonempty (by decide)

theorem nonEmptyString_of_sealed {message : JsString} (h : Sealed message) :
    Value.nonEmptyString (.json (.str message)) = some message :=
  if_neg (ne_nil_of_sealed h)

theorem validateContent_of_sealed {message : JsString} (h : Sealed message) :
    validateContent (.json (.str message)) = .ok (trim message) := by
  obtain ⟨env, hparse, henv⟩ := h.envelope
  have hempty : ¬ (trim message).length = 0 := Nat.ne_of_gt h.nonempty
  have hlong : ¬ (trim message).length > 5000 := Nat.not_lt.mpr h.short
  simp only [validateContent, nonEmptyString_of_sealed h, hempty, hlong, hparse, henv, if_false,
    not_true_eq_false]

theorem checkMessage_of_sealed {message : JsString} (h : Sealed message) :
    checkMessage (.json (.str message)) = .ok (trim message) := by
  have hlength : ¬ ((trim message).length = 0 ∨ (trim message).length > 5000) := by
    have hpos := h.nonempty
    have hshort := h.short
    omega
  simp only [checkMessage, nonEmptyString_of_sealed h, hlength, if_false]

theorem checkEnvelope_of_sealed {message : JsString} (h : Sealed message) :
    checkEnvelope (trim message) = .store (trim message) := by
  obtain ⟨env, hparse, henv⟩ := h.envelope
  simp only [checkEnvelope, hparse, henv, if_true]

/-- What the controller takes is the trimmed message. -/
theorem eq_trim_of_validateContent {message text : JsString}
    (h : validateContent (.json (.str message)) = .ok text) : text = trim message := by
  unfold validateContent Value.nonEmptyString at h
  by_cases hempty : message = []
  · simp [hempty] at h
  · simp only [hempty, if_false] at h
    split at h
    · cases h
    · split at h
      · cases h
      · cases hparse : JSON.parse (trim message) with
        | error e => simp [hparse] at h
        | ok env =>
          simp only [hparse] at h
          split at h
          · cases h
          · exact (Except.ok.inj h).symm

theorem validateContent_eq_ok {message text : JsString} :
    validateContent (.json (.str message)) = .ok text ↔ Sealed message ∧ text = trim message := by
  constructor
  · intro h
    obtain rfl := eq_trim_of_validateContent h
    exact ⟨validateContent_ok h, rfl⟩
  · rintro ⟨h, rfl⟩
    exact validateContent_of_sealed h

theorem validateReceiver_eq_ok {senderId receiverId : JsString} :
    validateReceiver senderId (.json (.str receiverId)) = .ok () ↔
      receiverId ≠ [] ∧ receiverId ≠ senderId := by
  rw [validateReceiver, Value.truthy_str, Value.strictEq_str]
  by_cases hempty : receiverId = []
  · simp [hempty]
  · by_cases hself : senderId = receiverId
    · subst hself
      simp [hempty]
    · simp [hempty, hself, Ne.symm hself]

def insertedRow : Op → Option NewMessage
  | .insert _ row => some row
  | _ => none

def insertions (ops : List Op) : List NewMessage := ops.filterMap insertedRow

section Paths

variable {τ : Type} (repo : Repository τ) (here : Surroundings) (user : AuthUser)

theorem insertions_received (n : IncomingMessageNotification) :
    insertions (receivedEffects here n) = [] := by
  rw [insertions, List.filterMap_eq_nil_iff]
  intro op hop
  cases op with
  | insert id row => exact (receivedEffects_notify here hop).elim
  | _ => rfl

/-- The database takes the message for the receiver. -/
def Takes (db : τ) (receiverId message : JsString) : Prop :=
  ∃ saved, (repo.insert none (encryptedMessage user.id (.json (.str receiverId)) (trim message))
    db).1 = .ok saved

/-- The request is answered with the stored message. -/
def RestAccepts (receiverId message : JsString) (w : World τ) : Prop :=
  ∃ text saved, ((postSend user receiverId message).run (exec repo here) w).1 =
    .ok (.handled (.json 200 text (.message saved)))

def restInsertions (receiverId message : JsString) (w : World τ) : List NewMessage :=
  insertions (effects ((postSend user receiverId message).trace (exec repo here) w))

/-- A request passes when the two checks of the controller pass and the row is stored. -/
theorem sendMessage_accepts_iff {body : Value} (hbody : ¬ body.Nullish) (w : World τ) :
    (∃ text saved, ((sendMessage user body).run (exec repo here) w).1 =
        .ok (.json 200 text (.message saved))) ↔
      validateReceiver user.id (body.field "receiverId") = .ok () ∧
        ∃ trimmed, validateContent (body.field "message") = .ok trimmed ∧
          ∃ saved, (repo.insert none
            (encryptedMessage user.id (body.field "receiverId") trimmed) w.db).1 = .ok saved := by
  cases hcheck : checkBody user body with
  | error e =>
    rw [sendMessage_rejected hcheck]
    refine iff_of_false (by rintro ⟨text, saved, ⟨⟩⟩) ?_
    rintro ⟨hreceiver, trimmed, hcontent, -⟩
    have hok := checkBody_eq_ok.mpr ⟨hbody, hreceiver, hcontent⟩
    rw [hcheck] at hok
    cases hok
  | ok trimmed =>
    obtain ⟨-, hreceiver, hcontent⟩ := checkBody_eq_ok.mp hcheck
    rw [sendMessage_checked hcheck, storeAndAnswer_run, hreceiver, hcontent]
    cases hi : (repo.insert none
        (encryptedMessage user.id (body.field "receiverId") trimmed) w.db).1 with
    | error e => simp [answer, hi]
    | ok saved => simp [answer, hi]

theorem sendMessage_insertions {body : Value} (hbody : ¬ body.Nullish)
    (hreceiver : validateReceiver user.id (body.field "receiverId") = .ok ())
    {trimmed : JsString} (hcontent : validateContent (body.field "message") = .ok trimmed)
    {saved : Message} {w : World τ} (hi : (repo.insert none
      (encryptedMessage user.id (body.field "receiverId") trimmed) w.db).1 = .ok saved) :
    insertions (effects ((sendMessage user body).trace (exec repo here) w)) =
      [encryptedMessage user.id (body.field "receiverId") trimmed] := by
  rw [sendMessage_stored repo here (checkBody_eq_ok.mpr ⟨hbody, hreceiver, hcontent⟩) hi]
  exact congrArg (_ :: ·) (insertions_received here _)

theorem field_head (key : String) (v : Json) (fields : List (JsString × Json)) :
    Value.field (.json (.obj ((js key, v) :: fields))) key = .json v := by
  rw [Value.field, lookup, if_pos rfl]
  rfl

theorem field_tail {key other : String} (h : js other ≠ js key) (v : Json)
    (fields : List (JsString × Json)) :
    Value.field (.json (.obj ((js other, v) :: fields))) key =
      Value.field (.json (.obj fields)) key := by
  rw [Value.field, lookup, if_neg h]
  rfl

theorem sendBody_receiverId (receiverId message : JsString) :
    (sendBody receiverId message).field "receiverId" = .json (.str receiverId) :=
  field_head "receiverId" _ _

theorem sendBody_message (receiverId message : JsString) :
    (sendBody receiverId message).field "message" = .json (.str message) := by
  have hkey : js "receiverId" ≠ js "message" := by decide +kernel
  rw [sendBody, field_tail hkey, field_head]

theorem sendBody_not_nullish (receiverId message : JsString) :
    ¬ (sendBody receiverId message).Nullish := by
  intro h
  exact h

theorem postSend_valid {receiverId message : JsString}
    (h : sendMessageValidation receiverId message = []) :
    postSend user receiverId message =
      (sendMessage user (sendBody (trim receiverId) message)).bind fun result =>
        pure (.handled result) := if_pos h

theorem postSend_invalid {receiverId message : JsString}
    (h : sendMessageValidation receiverId message ≠ []) :
    postSend user receiverId message =
      pure (.invalid (sendMessageValidation receiverId message)) := if_neg h

/-- The route takes a request that its checks pass if the controller does. -/
theorem restAccepts_valid {receiverId message : JsString}
    (h : sendMessageValidation receiverId message = []) (w : World τ) :
    RestAccepts repo here user receiverId message w ↔
      ∃ text saved, ((sendMessage user (sendBody (trim receiverId) message)).run
        (exec repo here) w).1 = .ok (.json 200 text (.message saved)) := by
  rw [RestAccepts, postSend_valid user h]
  simp only [Program.run_bind]
  rcases (sendMessage user (sendBody (trim receiverId) message)).run (exec repo here) w
    with ⟨result, w'⟩
  cases result with
  | ok answer => simp
  | error e => simp

theorem restAccepts_iff {receiverId message : JsString} {w : World τ} :
    RestAccepts repo here user receiverId message w ↔
      Sealed message ∧ isUUID (trim receiverId) = true ∧ trim receiverId ≠ user.id ∧
        lengthInCharacters message ≤ 5000 ∧
          Takes repo user w.db (trim receiverId) message := by
  by_cases h : sendMessageValidation receiverId message = []
  · obtain ⟨hne, huuid, -, hlength⟩ := sendMessageValidation_eq_nil.mp h
    rw [restAccepts_valid repo here user h,
      sendMessage_accepts_iff repo here user (sendBody_not_nullish _ _), sendBody_receiverId,
      sendBody_message, validateReceiver_eq_ok]
    constructor
    · rintro ⟨⟨-, hself⟩, trimmed, hcontent, hstored⟩
      obtain ⟨hsealed, rfl⟩ := validateContent_eq_ok.mp hcontent
      exact ⟨hsealed, huuid, hself, hlength, hstored⟩
    · rintro ⟨hsealed, -, hself, -, hstored⟩
      exact ⟨⟨hne, hself⟩, _, validateContent_of_sealed hsealed, hstored⟩
  · constructor
    · rintro ⟨text, saved, hanswer⟩
      rw [postSend_invalid user h] at hanswer
      cases hanswer
    · rintro ⟨hsealed, huuid, -, hlength, -⟩
      exact absurd (sendMessageValidation_eq_nil.mpr ⟨ne_nil_of_isUUID huuid, huuid,
        ne_nil_of_sealed hsealed, hlength⟩) h

/-- The row holds the receiver without the white space. -/
theorem restInsertions_eq {receiverId message : JsString} {w : World τ}
    (h : RestAccepts repo here user receiverId message w) :
    restInsertions repo here user receiverId message w =
      [encryptedMessage user.id (.json (.str (trim receiverId))) (trim message)] := by
  obtain ⟨hsealed, huuid, hself, hlength, saved, hi⟩ := (restAccepts_iff repo here user).mp h
  have hvalid : sendMessageValidation receiverId message = [] :=
    sendMessageValidation_eq_nil.mpr
      ⟨ne_nil_of_isUUID huuid, huuid, ne_nil_of_sealed hsealed, hlength⟩
  have hrun : effects ((postSend user receiverId message).trace (exec repo here) w) =
      effects ((sendMessage user (sendBody (trim receiverId) message)).trace
        (exec repo here) w) := by
    rw [postSend_valid user hvalid, Program.trace_bind]
    rcases (sendMessage user (sendBody (trim receiverId) message)).run (exec repo here) w
      with ⟨result, w'⟩
    cases result with
    | ok answer => exact congrArg effects (List.append_nil _)
    | error e => exact congrArg effects (List.append_nil _)
  have hreceiver : validateReceiver user.id
      ((sendBody (trim receiverId) message).field "receiverId") = .ok () := by
    rw [sendBody_receiverId]
    exact validateReceiver_eq_ok.mpr ⟨ne_nil_of_isUUID huuid, hself⟩
  have hcontent : validateContent ((sendBody (trim receiverId) message).field "message") =
      .ok (trim message) := by
    rw [sendBody_message]
    exact validateContent_of_sealed hsealed
  rw [← sendBody_receiverId (trim receiverId) message] at hi ⊢
  rw [restInsertions, hrun]
  exact sendMessage_insertions repo here user (sendBody_not_nullish _ _) hreceiver hcontent hi

/-- The payload of a new message, under the sender's own id. -/
def eventData (receiverId message : JsString) : Value :=
  .json (.obj [(js "senderId", .str user.id), (js "receiverId", .str receiverId),
    (js "message", .str message)])

/-- The event is acknowledged as successful. -/
def SocketAccepts (receiverId message : JsString) (w : World τ) : Prop :=
  ∃ i, .acknowledge (.ok i) ∈ effects ((handleSendMessage user
    (eventData user receiverId message) .function).trace (exec repo here) w)

def socketInsertions (receiverId message : JsString) (w : World τ) : List NewMessage :=
  insertions (effects ((handleSendMessage user (eventData user receiverId message)
    .function).trace (exec repo here) w))

theorem eventData_senderId (receiverId message : JsString) :
    (eventData user receiverId message).field "senderId" = .json (.str user.id) :=
  field_head "senderId" _ _

theorem eventData_receiverId (receiverId message : JsString) :
    (eventData user receiverId message).field "receiverId" = .json (.str receiverId) := by
  have hkey : js "senderId" ≠ js "receiverId" := by decide +kernel
  rw [eventData, field_tail hkey, field_head]

theorem eventData_message (receiverId message : JsString) :
    (eventData user receiverId message).field "message" = .json (.str message) := by
  have hkey : js "senderId" ≠ js "message" := by decide +kernel
  have hkey' : js "receiverId" ≠ js "message" := by decide +kernel
  rw [eventData, field_tail hkey, field_tail hkey', field_head]

theorem eventData_id (receiverId message : JsString) :
    (eventData user receiverId message).field "_id" = .undefined := by
  have hkey : js "senderId" ≠ js "_id" := by decide +kernel
  have hkey' : js "receiverId" ≠ js "_id" := by decide +kernel
  have hkey'' : js "message" ≠ js "_id" := by decide +kernel
  rw [eventData, field_tail hkey, field_tail hkey', field_tail hkey'']
  rfl

theorem verdict_eventData {receiverId message text : JsString} :
    verdict user (eventData user receiverId message) = .store text ↔
      Sealed message ∧ text = trim message ∧ receiverId ≠ [] ∧ receiverId ≠ user.id := by
  constructor
  · intro h
    have hstored := verdict_eq_store h
    obtain ⟨raw, hraw, rfl⟩ := hstored.message
    rw [eventData_message] at hraw
    obtain rfl := Json.str.inj (Value.json.inj hraw)
    have htruthy := hstored.receiverId_truthy
    have hself := hstored.receiverId_ne
    rw [eventData_receiverId] at htruthy hself
    refine ⟨hstored.encrypted, rfl, ?_, ?_⟩
    · simpa using htruthy
    · exact fun heq => hself (congrArg (fun s => Value.json (.str s)) heq)
  · rintro ⟨hsealed, rfl, hne, hself⟩
    rw [verdict, eventData_senderId, eventData_message, checkMessage_of_sealed hsealed,
      eventData_receiverId, eventData_id]
    simp [hne, hself, checkEnvelope_of_sealed hsealed]

theorem socketAccepts_iff {receiverId message : JsString} {w : World τ} :
    SocketAccepts repo here user receiverId message w ↔
      Sealed message ∧ receiverId ≠ [] ∧ receiverId ≠ user.id ∧
        Takes repo user w.db receiverId message := by
  constructor
  · rintro ⟨i, hi⟩
    have hid : ((eventData user receiverId message).field "_id").truthy = false := by
      rw [eventData_id]
      rfl
    obtain ⟨text, saved, hv, hstored, -⟩ := acknowledged_stored repo here user hid hi
    obtain ⟨hsealed, rfl, hne, hself⟩ := (verdict_eventData user).mp hv
    rw [eventData_receiverId] at hstored
    exact ⟨hsealed, hne, hself, saved, hstored⟩
  · rintro ⟨hsealed, hne, hself, saved, hstored⟩
    have hv := (verdict_eventData user).mpr ⟨hsealed, rfl, hne, hself⟩
    rw [← eventData_receiverId user receiverId message] at hstored
    refine ⟨saved.id, ?_⟩
    rw [handleSendMessage, Program.trace_tryCatch,
      trySendMessage_eq user .function (not_nullish_of_store hv), hv]
    simp [afterVerdict, storeAndDeliver_trace, hstored, storeTrace, deliveryEffects, ackEffects]

/-- The failure of an event inserts nothing. -/
theorem insertedRow_of_failure (op : Op) (h : FailureFootprint op) : insertedRow op = none := by
  cases op with
  | insert i row => cases h
  | _ => rfl

theorem socketInsertions_eq {receiverId message : JsString} {w : World τ}
    (h : SocketAccepts repo here user receiverId message w) :
    socketInsertions repo here user receiverId message w =
      [encryptedMessage user.id (.json (.str receiverId)) (trim message)] := by
  obtain ⟨hsealed, hne, hself, saved, hstored⟩ := (socketAccepts_iff repo here user).mp h
  have hv := (verdict_eventData user).mpr ⟨hsealed, rfl, hne, hself⟩
  rw [← eventData_receiverId user receiverId message] at hstored ⊢
  have hdelivery : (deliver user ((eventData user receiverId message).field "receiverId") saved
      .function).Issues fun op => insertedRow op = none :=
    deliver_issues user _ saved _ rfl rfl (fun _ => rfl) fun _ => rfl
  rw [socketInsertions, insertions,
    observed_handleSendMessage repo here user insertedRow_of_failure,
    trySendMessage_eq user .function (not_nullish_of_store hv), hv, afterVerdict,
    observed_store repo here user hdelivery hstored]
  exact congrArg (_ :: ·) (insertions_received here _)

/-- Both paths take the message or neither does, and they insert the same row. -/
structure Agree (receiverId message : JsString) (w : World τ) : Prop where
  accepts : RestAccepts repo here user receiverId message w ↔
    SocketAccepts repo here user receiverId message w
  row : RestAccepts repo here user receiverId message w →
    SocketAccepts repo here user receiverId message w →
      restInsertions repo here user receiverId message w =
        socketInsertions repo here user receiverId message w

/-- The route takes the receiver and the length of the message. -/
def RouteTakes (db : τ) (receiverId message : JsString) : Prop :=
  isUUID (trim receiverId) = true ∧ trim receiverId ≠ user.id ∧
    lengthInCharacters message ≤ 5000 ∧ Takes repo user db (trim receiverId) message

/-- The event takes the receiver. -/
def EventTakes (db : τ) (receiverId message : JsString) : Prop :=
  receiverId ≠ [] ∧ receiverId ≠ user.id ∧ Takes repo user db receiverId message

/-- The paths agree on messages that are no envelopes, on receivers that are UUIDs when the
message is short even with its white space, and where neither takes the receiver. -/
theorem agree_iff (receiverId message : JsString) (w : World τ) :
    Agree repo here user receiverId message w ↔
      ¬ Sealed message ∨ (isUUID receiverId = true ∧ lengthInCharacters message ≤ 5000) ∨
        (¬ RouteTakes repo user w.db receiverId message ∧
          ¬ EventTakes repo user w.db receiverId message) := by
  by_cases hsealed : Sealed message
  · have hrest : RestAccepts repo here user receiverId message w ↔
        RouteTakes repo user w.db receiverId message := by
      rw [restAccepts_iff, and_iff_right hsealed, RouteTakes]
    have hsocket : SocketAccepts repo here user receiverId message w ↔
        EventTakes repo user w.db receiverId message := by
      rw [socketAccepts_iff, and_iff_right hsealed, EventTakes]
    constructor
    · intro h
      by_cases hroute : RouteTakes repo user w.db receiverId message
      · have hr := hrest.mpr hroute
        have hs := h.accepts.mp hr
        have hrow := h.row hr hs
        rw [restInsertions_eq repo here user hr, socketInsertions_eq repo here user hs] at hrow
        have htrim : trim receiverId = receiverId :=
          Json.str.inj (congrArg NewMessage.receiverId (List.head_eq_of_cons_eq hrow))
        obtain ⟨huuid, -, hlength, -⟩ := hroute
        exact .inr (.inl ⟨htrim ▸ huuid, hlength⟩)
      · have hevent : ¬ EventTakes repo user w.db receiverId message := fun hevent =>
          hroute (hrest.mp (h.accepts.mpr (hsocket.mpr hevent)))
        exact .inr (.inr ⟨hroute, hevent⟩)
    · rintro (hopen | ⟨huuid, hlength⟩ | ⟨hroute, hevent⟩)
      · exact absurd hsealed hopen
      · have htrim := trim_of_isUUID huuid
        refine ⟨?_, fun hr hs => ?_⟩
        · rw [hrest, hsocket, RouteTakes, EventTakes, htrim]
          simp only [huuid, hlength, ne_nil_of_isUUID huuid, true_and, ne_eq, not_false_eq_true]
        · rw [restInsertions_eq repo here user hr, socketInsertions_eq repo here user hs, htrim]
      · exact ⟨iff_of_false (mt hrest.mp hroute) (mt hsocket.mp hevent),
          fun hr _ => absurd (hrest.mp hr) hroute⟩
  · have hr : ¬ RestAccepts repo here user receiverId message w := fun h =>
      hsealed ((restAccepts_iff repo here user).mp h).1
    have hs : ¬ SocketAccepts repo here user receiverId message w := fun h =>
      hsealed ((socketAccepts_iff repo here user).mp h).1
    exact iff_of_true ⟨iff_of_false hr hs, fun h _ => absurd h hr⟩ (.inl hsealed)

end Paths

/-- A receiver that is no UUID is written to over the socket only. -/
theorem disagree :
    ¬ Agree (postgres calm) quiet alice (js "bob") envelope World.empty := by
  intro h
  have hcontent : validateContent (.json (.str envelope)) = .ok envelope := by decide +kernel
  have hbob : js "bob" ≠ [] ∧ js "bob" ≠ alice.id := by decide +kernel
  have htrim : trim envelope = envelope := by decide +kernel
  have hi : ((postgres calm).insert none (encryptedMessage alice.id (.json (.str (js "bob")))
      envelope) World.empty.db).1 =
        .ok ((encryptedMessage alice.id (.json (.str (js "bob"))) envelope).toRow
          (js "m1") 0) := by decide +kernel
  have hsocket : SocketAccepts (postgres calm) quiet alice (js "bob") envelope World.empty := by
    refine (socketAccepts_iff (postgres calm) quiet alice).mpr
      ⟨(validateContent_eq_ok.mp hcontent).1, hbob.1, hbob.2, ?_⟩
    rw [Takes, htrim]
    exact ⟨_, hi⟩
  obtain ⟨-, huuid, -⟩ :=
    (restAccepts_iff (postgres calm) quiet alice).mp (h.accepts.mpr hsocket)
  have hno : isUUID (trim (js "bob")) = false := by decide +kernel
  rw [hno] at huuid
  cases huuid

end ChatMicroservices.SendPaths

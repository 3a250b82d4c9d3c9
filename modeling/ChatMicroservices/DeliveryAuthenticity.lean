import ChatMicroservices.MessageAnnouncement

/-!
# What a `sendMessage` event may deliver

A message that is sent again is the stored row of the sender and the receiver of the event. A
new message is emitted as the entity that was saved, which is the stored row if its texts
survive the encoding of the columns. An event with `_id` leaves the table alone, and when its
`_id` names no message of the pair nothing about the other rows can be observed: a statement
about two tables.
-/

namespace ChatMicroservices.DeliveryAuthenticity
open JavaScriptValues EffectPrograms KeyedTables MessagesTable ChatEffects MessageNotification
open SocketHandlers SendMessageRuns HandlerFootprints ListenerContainment MessageAnnouncement
open StoredTexts

section Parts

variable {τ : Type} {here : Surroundings} {user : AuthUser} {room : Value} {event : ServerEvent}

theorem emit_mem_delivery {receiverId : Value} {msg : Message} {ack : Value}
    (h : .emit room event ∈ deliveryEffects user receiverId msg ack) :
    room = receiverId ∧ (event = .typing user.id false ∨
      event = .receiveMessage (formatMessageForClient msg user.username)) := by
  rcases List.mem_append.mp h with h | h
  · rcases List.mem_pair.mp h with h | h
    · obtain ⟨hroom, hevent⟩ := Op.emit.inj h
      exact ⟨hroom, .inl hevent⟩
    · obtain ⟨hroom, hevent⟩ := Op.emit.inj h
      exact ⟨hroom, .inr hevent⟩
  · cases mem_ackEffects h

theorem mem_map_world {ops : List Op} {op : Op} {w w' : World τ} :
    (op, w') ∈ (ops.map fun op => (op, w)) ↔ op ∈ ops ∧ w' = w := by
  simp [eq_comm]

/-- What is emitted after a lookup is the existing message, if it may be sent again. -/
theorem emit_mem_resend {receiverId ack : Value} {found : Except JsError (Option Message)}
    {w w' : World τ} (h : (.emit room event, w') ∈ resendTrace user receiverId ack found w) :
    ∃ m existing, found = .ok m ∧ resendable user receiverId m = .ok existing ∧
      w' = typingCleared w user.id ∧ room = receiverId ∧ (event = .typing user.id false ∨
        event = .receiveMessage (formatMessageForClient existing user.username)) := by
  cases found with
  | error e => cases h
  | ok m =>
    simp only [resendTrace] at h
    cases hr : resendable user receiverId m with
    | error e =>
      simp only [hr, mem_map_world] at h
      cases mem_ackEffects h.1
    | ok existing =>
      simp only [hr, List.mem_append, mem_map_world] at h
      rcases h with h | ⟨h, hw⟩
      · rcases mem_clearingTrace h with h | h <;> cases h
      · exact ⟨m, existing, rfl, hr, hw, emit_mem_delivery h⟩

/-- What is emitted after an insertion is the inserted message. -/
theorem emit_mem_store {receiverId ack : Value} {trimmed : JsString}
    {saved : Except JsError Message} {w w' : World τ}
    (h : (.emit room event, w') ∈ storeTrace here user receiverId trimmed ack saved w) :
    ∃ row, saved = .ok row ∧ w' = typingCleared w user.id ∧ room = receiverId ∧
      (event = .typing user.id false ∨
        event = .receiveMessage (formatMessageForClient row user.username)) := by
  cases saved with
  | error e => cases h
  | ok row =>
    simp only [storeTrace, List.mem_append, mem_map_world] at h
    rcases h with (⟨h, -⟩ | h) | ⟨h, hw⟩
    · exact (receivedEffects_notify here h).elim
    · rcases mem_clearingTrace h with h | h <;> cases h
    · exact ⟨row, rfl, hw, emit_mem_delivery h⟩

end Parts

theorem resendable_eq_ok {user : AuthUser} {receiverId : Value} {found : Option Message}
    {existing : Message} (h : resendable user receiverId found = .ok existing) :
    found = some existing ∧ ownedBy existing user.id receiverId = true ∧
      existing.isEncrypted = true := by
  unfold resendable at h
  split at h
  · cases h
  · split at h
    · cases h
    · split at h
      · cases h
      · rename_i ho he
        obtain rfl := Except.ok.inj h
        exact ⟨rfl, by simpa using ho, by simpa using he⟩

theorem ownedBy_str {m : Message} {senderId r : JsString} :
    ownedBy m senderId (.json (.str r)) = true ↔ m.senderId = senderId ∧ m.receiverId = .str r := by
  simp [ownedBy, Value.strictEq_str_right]

/-- The message is formatted from a row of `t` that `user` sent, encrypted, to `r`. -/
def CarriesStoredRow (user : AuthUser) (r : JsString) (t : Table) (cm : ClientMessage) : Prop :=
  ∃ row ∈ t.rows, row.senderId = user.id ∧ row.receiverId = .str r ∧ row.isEncrypted = true ∧
    cm = formatMessageForClient row user.username

section Runs

variable {c : Conditions} {here : Surroundings} {user : AuthUser} {data ack : Value}
  {r : JsString} {w w' : World Table}

theorem resend_carries (hr : data.field "receiverId" = .json (.str r)) {trimmed : JsString}
    {room : Value} {cm : ClientMessage}
    (h : (.emit room (.receiveMessage cm), w') ∈
      (resendAndDeliver user data trimmed ack).trace (exec (postgres c) here) w) :
    CarriesStoredRow user r w'.db cm := by
  rw [resendAndDeliver_trace, List.mem_cons] at h
  rcases h with h | h
  · cases h
  · obtain ⟨found, existing, hfound, hres, rfl, -, hevent⟩ := emit_mem_resend h
    obtain ⟨rfl, howned, henc⟩ := resendable_eq_ok hres
    rw [hr, ownedBy_str] at howned
    have hmem := (statements_findOne_eq_some hfound).1
    rcases hevent with hevent | hevent
    · cases hevent
    · refine ⟨existing, ?_, howned.1, howned.2, henc, ServerEvent.receiveMessage.inj hevent⟩
      rw [typingCleared_db]
      exact hmem

/-- A new message is emitted as it was saved, once its row is in the table. -/
theorem store_emission {receiverId : Value} {trimmed : JsString} {room : Value}
    {cm : ClientMessage}
    (h : (.emit room (.receiveMessage cm), w') ∈
      (storeAndDeliver user receiverId trimmed ack).trace (exec (postgres c) here) w) :
    ∃ saved, ((postgres c).insert none (encryptedMessage user.id receiverId trimmed) w.db).1 =
        .ok saved ∧
      saved.encoded toWellFormed ∈ w'.db.rows ∧
        cm = formatMessageForClient saved user.username := by
  rw [storeAndDeliver_trace, List.mem_cons] at h
  rcases h with h | h
  · cases h
  · obtain ⟨saved, hsaved, rfl, -, hevent⟩ := emit_mem_store h
    rcases hevent with hevent | hevent
    · cases hevent
    · refine ⟨saved, hsaved, ?_, ServerEvent.receiveMessage.inj hevent⟩
      rw [typingCleared_db]
      exact statements_insert_mem hsaved

/-- A message is emitted after a lookup, or after an insertion that the checks let through. -/
theorem trySendMessage_emission (hr : data.field "receiverId" = .json (.str r))
    {room : Value} {cm : ClientMessage}
    (h : (.emit room (.receiveMessage cm), w') ∈
      (trySendMessage user data ack).trace (exec (postgres c) here) w) :
    ((data.field "_id").truthy = true ∧ CarriesStoredRow user r w'.db cm) ∨
      ∃ trimmed saved, verdict user data = .store trimmed ∧
        ((postgres c).insert none (encryptedMessage user.id (data.field "receiverId") trimmed)
          w.db).1 = .ok saved ∧
        saved.encoded toWellFormed ∈ w'.db.rows ∧
          cm = formatMessageForClient saved user.username := by
  rcases trySendMessage_cases user data ack with
    ⟨-, hrun⟩ | ⟨error, -, hrun⟩ | ⟨trimmed, hv, hrun⟩ | ⟨trimmed, hv, hrun⟩
  all_goals rw [hrun] at h
  · cases h
  · rw [acknowledgeWith_trace, mem_map_world] at h
    cases mem_ackEffects h.1
  · exact .inl ⟨verdict_resend_id hv, resend_carries hr h⟩
  · obtain ⟨saved, hsaved, hrow, hcm⟩ := store_emission h
    exact .inr ⟨trimmed, saved, hv, hsaved, hrow, hcm⟩

/-- The columns of a new message hold its texts as they are: the id of the sender, the
receiver, and the message without the blanks around it. -/
structure TextsKept (user : AuthUser) (data : Value) (r : JsString) : Prop where
  senderId : toWellFormed user.id = user.id
  receiverId : toWellFormed r = r
  message : ∀ text, data.field "message" = .json (.str text) →
    toWellFormed (trim text) = trim text

/-- The entity that was saved is its row if and only if the row holds its texts. -/
theorem carriesStoredRow_iff {trimmed id : JsString} {now : ℕ} {saved : Message} {t : Table}
    (hsaved : saved = (encryptedMessage user.id (.json (.str r)) trimmed).toRow id now)
    (hmem : saved.encoded toWellFormed ∈ t.rows) :
    CarriesStoredRow user r t (formatMessageForClient saved user.username) ↔
      toWellFormed user.id = user.id ∧ toWellFormed r = r ∧ toWellFormed trimmed = trimmed := by
  subst hsaved
  constructor
  · rintro ⟨row, hrow, -, -, -, hcm⟩
    obtain rfl := t.eq_of_key_eq hrow hmem (congrArg ClientMessage.id hcm).symm
    have hsender : user.id = toWellFormed user.id := congrArg ClientMessage.senderId hcm
    have hreceiver : Json.str r = .str (toWellFormed r) :=
      congrArg ClientMessage.receiverId hcm
    have hmessage : trimmed = toWellFormed trimmed := congrArg ClientMessage.message hcm
    exact ⟨hsender.symm, (Json.str.inj hreceiver).symm, hmessage.symm⟩
  · rintro ⟨hsender, hreceiver, hmessage⟩
    have hencoded : ((encryptedMessage user.id (.json (.str r)) trimmed).toRow id now).encoded
        toWellFormed = (encryptedMessage user.id (.json (.str r)) trimmed).toRow id now := by
      simp [Message.encoded, NewMessage.toRow, encryptedMessage, encodeColumn, Value.column,
        hsender, hreceiver, hmessage]
    rw [hencoded] at hmem
    exact ⟨_, hmem, rfl, rfl, rfl, rfl⟩

/-- The message that the event stores is emitted. -/
theorem accepted_emission {τ : Type} {repo : Repository τ} {args : List Value}
    {trimmed : JsString} {saved : Message} {w : World τ}
    (hv : verdict user (argument args 0) = .store trimmed)
    (hi : (repo.insert none (encryptedMessage user.id
      ((argument args 0).field "receiverId") trimmed) w.db).1 = .ok saved) :
    ∃ w', (.emit ((argument args 0).field "receiverId")
        (.receiveMessage (formatMessageForClient saved user.username)), w') ∈
      (listener user .sendMessage args).trace (exec repo here) w := by
  have heffects := accepted_emitted repo here (argument args 1) hv hi
  obtain ⟨⟨op, w'⟩, hmem, rfl⟩ := List.mem_map.mp heffects
  refine ⟨w', ?_⟩
  rw [listener, floating, Program.trace_tryCatch]
  exact List.mem_append_left _ hmem

theorem listener_emission {args : List Value} {room : Value} {cm : ClientMessage}
    (hr : (argument args 0).field "receiverId" = .json (.str r))
    (h : (.emit room (.receiveMessage cm), w') ∈
      (listener user .sendMessage args).trace (exec (postgres c) here) w) :
    (((argument args 0).field "_id").truthy = true ∧ CarriesStoredRow user r w'.db cm) ∨
      ∃ trimmed saved, verdict user (argument args 0) = .store trimmed ∧
        ((postgres c).insert none (encryptedMessage user.id
          ((argument args 0).field "receiverId") trimmed) w.db).1 = .ok saved ∧
        saved.encoded toWellFormed ∈ w'.db.rows ∧
          cm = formatMessageForClient saved user.username := by
  rw [listener, floating, Program.trace_tryCatch, List.mem_append] at h
  rcases h with h | h
  · rcases mem_handleSendMessage_trace h with htry | hfail
    · exact trySendMessage_emission hr htry
    · exact hfail.elim
  · split at h
    · cases h
    · simp [perform] at h

theorem deliveries_carried_iff {args : List Value}
    (hr : (argument args 0).field "receiverId" = .json (.str r)) :
    (∀ room cm w', (.emit room (.receiveMessage cm), w') ∈
        (listener user .sendMessage args).trace (exec (postgres c) here) w →
      CarriesStoredRow user r w'.db cm) ↔
      (Accepts (postgres c) user (argument args 0) w.db → TextsKept user (argument args 0) r) := by
  have hrow : ∀ {trimmed saved}, ((postgres c).insert none (encryptedMessage user.id
      ((argument args 0).field "receiverId") trimmed) w.db).1 = .ok saved →
      saved = (encryptedMessage user.id (.json (.str r)) trimmed).toRow c.newId c.now := by
    intro trimmed saved hi
    rw [(statements_insert_ok hi).1, hr]
    rfl
  constructor
  · rintro h ⟨trimmed, saved, hv, hi⟩
    obtain ⟨w', hmem⟩ : ∃ w', (.emit ((argument args 0).field "receiverId")
        (.receiveMessage (formatMessageForClient saved user.username)), w') ∈
      (listener user .sendMessage args).trace (exec (postgres c) here) w := accepted_emission hv hi
    have hcarries := h _ _ w' hmem
    rcases listener_emission hr hmem with ⟨hid, -⟩ | ⟨trimmed', saved', hv', hi', hstored, hcm⟩
    · rw [(verdict_eq_store hv)._id] at hid
      cases hid
    · obtain rfl : trimmed = trimmed' := Verdict.store.inj (hv.symm.trans hv')
      rw [hcm, carriesStoredRow_iff (hrow hi') hstored] at hcarries
      obtain ⟨hsender, hreceiver, hmessage⟩ := hcarries
      obtain ⟨text, htext, rfl⟩ := (verdict_eq_store hv).message
      refine ⟨hsender, hreceiver, fun text' htext' => ?_⟩
      obtain rfl : text = text' := by
        rw [htext] at htext'
        simpa using htext'
      exact hmessage
  · intro h room cm w' hmem
    rcases listener_emission hr hmem with ⟨-, hcarries⟩ | ⟨trimmed, saved, hv, hi, hstored, rfl⟩
    · exact hcarries
    · have hkept := h ⟨trimmed, saved, hv, hi⟩
      obtain ⟨text, htext, rfl⟩ := (verdict_eq_store hv).message
      refine (carriesStoredRow_iff (hrow hi) hstored).mpr ?_
      exact ⟨hkept.senderId, hkept.receiverId, hkept.message text htext⟩

/-- The effect is no statement that can write the table. -/
def ReadsOnly : Op → Prop
  | .insert _ _ | .update _ _ | .markSeen _ _ => False
  | _ => True

theorem exec_readsOnly (c : Conditions) (here : Surroundings) (op : Op) (w : World Table)
    (h : ReadsOnly op) : (exec (postgres c) here op w).2.db = w.db := by
  rcases exec_db c here op w with hdb | ⟨id, row, rfl, -⟩ | ⟨id, changes, rfl, -⟩ |
    ⟨senderId, receiverId, rfl, -⟩
  · exact hdb
  · exact h.elim
  · exact h.elim
  · exact h.elim

theorem trySendMessage_readsOnly (hid : (data.field "_id").truthy = true) :
    (trySendMessage user data ack).Issues ReadsOnly := by
  rcases trySendMessage_cases user data ack with
    ⟨-, hrun⟩ | ⟨error, -, hrun⟩ | ⟨trimmed, -, hrun⟩ | ⟨trimmed, hv, hrun⟩
  all_goals rw [hrun]
  · trivial
  · exact acknowledgeWith_issues ack trivial
  · exact resendAndDeliver_issues user data trimmed ack trivial trivial trivial
      (fun _ => trivial) fun _ => trivial
  · simp [(verdict_eq_store hv)._id] at hid

theorem sendMessage_readsOnly {args : List Value}
    (hid : ((argument args 0).field "_id").truthy = true) :
    (listener user .sendMessage args).Issues ReadsOnly := by
  refine Program.Issues.tryCatch ?_ fun e => perform_issues trivial
  refine (trySendMessage_readsOnly hid).tryCatch fun _ => ?_
  refine (reportFailure_issues _).mono fun op hop => ?_
  cases op <;> trivial

/-- The tables hold the same messages from `user` to `r`. -/
def AgreeOnPair (user : AuthUser) (r : JsString) (t t' : Table) : Prop :=
  ∀ m : Message, m.senderId = user.id → m.receiverId = .str r → (m ∈ t.rows ↔ m ∈ t'.rows)

/-- No message from `user` to `r` has the id. -/
def NotOfPair (c : Conditions) (id : Value) (user : AuthUser) (r : JsString) (t : Table) : Prop :=
  ∀ m ∈ t.rows, m.senderId = user.id → m.receiverId = .str r → c.asUuid id ≠ .ok m.id

theorem queriedKey_ok {id : Value} {key : JsString} (h : c.queriedKey id = .ok key) :
    c.asUuid id = .ok key := by
  unfold Conditions.queriedKey at h
  split at h
  · cases h
  · exact h

theorem find_not_resendable {id : Value} {key : JsString} {t : Table}
    (hkey : c.queriedKey id = .ok key) (hnot : NotOfPair c id user r t) :
    resendable user (.json (.str r)) (t.find key) = .error "Message not found" := by
  cases hf : t.find key with
  | none => rfl
  | some m =>
    obtain ⟨hm, rfl⟩ := KeyedTable.find_eq_some.mp hf
    have howned : ownedBy m user.id (.json (.str r)) = false := by
      refine Bool.eq_false_iff.mpr fun ho => ?_
      obtain ⟨hs, hr⟩ := ownedBy_str.mp ho
      exact hnot m hm hs hr (queriedKey_ok hkey)
    simp [resendable, howned]

/-- The effect only answers the sender. -/
def Replies : Op → Prop
  | .acknowledge _ | .emitToSelf _ | .unhandledRejection _ => True
  | _ => False

theorem exec_replies (c : Conditions) (here : Surroundings) (op : Op) (w w' : World Table)
    (h : Replies op) : (exec (postgres c) here op w).1 = (exec (postgres c) here op w').1 := by
  cases op <;> first | rfl | cases h

/-- The promise of the event around a `try` block that only replies. -/
theorem effects_of_replies {p : Handler Unit} (hp : p.Issues Replies) (w w' : World Table) :
    effects ((floating (p.tryCatch fun _ => reportFailure ack)).trace
        (exec (postgres c) here) w) =
      effects ((floating (p.tryCatch fun _ => reportFailure ack)).trace
        (exec (postgres c) here) w') := by
  have hissues : (floating (p.tryCatch fun _ => reportFailure ack)).Issues Replies := by
    refine Program.Issues.tryCatch (hp.tryCatch fun _ => ?_) fun e => perform_issues trivial
    exact (reportFailure_issues ack).mono fun op hop => by cases op <;> trivial
  exact hissues.two_runs (exec (postgres c) here) (R := fun _ _ => True)
    (fun op w w' hop _ => ⟨exec_replies c here op w w' hop, trivial⟩) trivial

/-- An `_id` that names no message of the pair is answered alike over any two tables. -/
theorem refused_alike {args : List Value}
    (hr : (argument args 0).field "receiverId" = .json (.str r))
    (hid : ((argument args 0).field "_id").truthy = true)
    (hnot : NotOfPair c ((argument args 0).field "_id") user r w.db)
    (hnot' : NotOfPair c ((argument args 0).field "_id") user r w'.db) :
    effects ((listener user .sendMessage args).trace (exec (postgres c) here) w) =
      effects ((listener user .sendMessage args).trace (exec (postgres c) here) w') := by
  simp only [listener, handleSendMessage]
  rcases trySendMessage_cases user (argument args 0) (argument args 1) with
    ⟨-, hrun⟩ | ⟨error, -, hrun⟩ | ⟨trimmed, -, hrun⟩ | ⟨trimmed, hv, hrun⟩
  · rw [hrun]
    exact effects_of_replies (Program.issues_done _) w w'
  · rw [hrun]
    exact effects_of_replies (acknowledgeWith_issues _ trivial) w w'
  · rw [hrun, resendAndDeliver_eq, hr]
    simp only [Program.attempt, perform, Program.call, Program.bind_perform, floating,
      Program.tryCatch_perform, Program.trace_perform, effects_cons, exec, statements]
    cases hk : c.queriedKey ((argument args 0).field "_id") with
    | error e => exact congrArg _ (effects_of_replies (Program.issues_done _) _ _)
    | ok key =>
      simp only [Except.map, Program.bind_ok, find_not_resendable hk hnot,
        find_not_resendable hk hnot']
      exact congrArg _ (effects_of_replies (acknowledgeWith_issues _ trivial) _ _)
  · simp [(verdict_eq_store hv)._id] at hid

end Runs

theorem AgreeOnPair.notOfPair {c : Conditions} {id : Value} {user : AuthUser} {r : JsString}
    {t t' : Table} (h : AgreeOnPair user r t t') (hnot : NotOfPair c id user r t) :
    NotOfPair c id user r t' :=
  fun m hm hs hr => hnot m ((h m hs hr).mpr hm) hs hr

/-- What `sendMessage` promises of the event that meets `w`. -/
structure Authentic (c : Conditions) (here : Surroundings) (user : AuthUser) (args : List Value)
    (r : JsString) (w : World Table) : Prop where
  carries : ∀ room cm w', (.emit room (.receiveMessage cm), w') ∈
      (listener user .sendMessage args).trace (exec (postgres c) here) w →
    CarriesStoredRow user r w'.db cm
  reads : ((argument args 0).field "_id").truthy = true →
    (∀ op w', (op, w') ∈ (listener user .sendMessage args).trace (exec (postgres c) here) w →
      w'.db = w.db) ∧
    ((listener user .sendMessage args).run (exec (postgres c) here) w).2.db = w.db
  undisclosed : ((argument args 0).field "_id").truthy = true →
    NotOfPair c ((argument args 0).field "_id") user r w.db →
    ∀ w₂ : World Table, AgreeOnPair user r w.db w₂.db →
      effects ((listener user .sendMessage args).trace (exec (postgres c) here) w) =
        effects ((listener user .sendMessage args).trace (exec (postgres c) here) w₂)

/-- A message of `alice` to `bob`. -/
def messageToBob (text : JsString) : Packet :=
  ⟨[.obj [(js "senderId", .str alice.id), (js "receiverId", .str bob.id),
    (js "message", .str text)]], true⟩

def envelopeOf (body : JsString) : JsString :=
  js "\x7b\"__encrypted\":true,\"body\":\"" ++ body ++ js "\"\x7d"

/-- A body that is a lone surrogate, which a packet carries as the escape `\ud800`. -/
def surrogateBody : JsString := envelopeOf [0xD800]

end ChatMicroservices.DeliveryAuthenticity

import ChatMicroservices.DeliveryAuthenticity
import ChatMicroservices.MessageAnnouncement

/-!
# Who receives an emitted event

`io.to` takes whatever value the client sent as the receiver. A value that is not an array
names one room, an array names all rooms in it, and the empty array every connected socket.
The checks of the handlers let arrays through, so an array can reach several users. The store
holds whatever value it is given.
-/

namespace ChatMicroservices.EventAudience
open JavaScriptValues EffectPrograms KeyedTables MessagesTable ChatEffects MessageNotification
open SocketHandlers SendMessageRuns HandlerFootprints DeliveryAuthenticity ListenerContainment
open MessageAnnouncement

/-- A socket of `user`, which joined the room of that user's id, receives what is emitted to
`io.to(room)`. Only the rooms that `registerPresence` joins count, not the one that a socket
has under its own random id. -/
def Reaches (room : Value) (user : AuthUser) : Prop :=
  match room with
  | .json (.arr []) => True
  | .json (.arr xs) => Json.str user.id ∈ xs
  | room => room = .json (.str user.id)

/-- What an effect sends to a room: an emission at once, and the emission of the timeout it
arms. -/
def Sends (op : Op) (room : Value) (event : ServerEvent) : Prop :=
  op = .emit room event ∨ ∃ userId, op = .armTyping userId room ∧ event = .typing userId false

theorem typingTimeout_trace {τ : Type} (repo : Repository τ) (here : Surroundings)
    (userId : JsString) (receiverId : Value) (w : World τ) :
    (typingTimeout userId receiverId).trace (exec repo here) w =
      [(.emit receiverId (.typing userId false), w), (.deleteTyping userId, w)] := rfl

/-- The audience of a run: the sockets of one user, and for a message the receiver that its
stored row names. -/
structure WellAddressed (t : List (Op × World Table)) : Prop where
  single : ∃ u : JsString, ∀ op w, (op, w) ∈ t → ∀ room event, Sends op room event →
    ∀ user, Reaches room user → user.id = u
  receiver : ∀ room cm w, (.emit room (.receiveMessage cm), w) ∈ t →
    ∀ user, Reaches room user → ∃ row ∈ w.db.rows, ∃ username,
      cm = formatMessageForClient row username ∧ row.receiverId = .str user.id

/-- The room value reaches at most one user, whoever is connected. -/
def OneRoom : Value → Prop
  | .json (.arr xs) =>
    xs ≠ [] ∧ ∀ a b, a ≠ [] → b ≠ [] → Json.str a ∈ xs → Json.str b ∈ xs → a = b
  | _ => True

/-- The room value is a single room, or reaches nobody. -/
def NoArrayAudience : Value → Prop
  | .json (.arr xs) => xs ≠ [] ∧ ∀ a, a ≠ [] → Json.str a ∉ xs
  | _ => True

theorem reaches_of_not_array {room : Value} (h : ∀ xs, room ≠ .json (.arr xs))
    (user : AuthUser) : Reaches room user ↔ room = .json (.str user.id) := by
  unfold Reaches
  split
  · exact absurd rfl (h _)
  · exact absurd rfl (h _)
  · rfl

theorem reaches_array {xs : List Json} (hne : xs ≠ []) (user : AuthUser) :
    Reaches (.json (.arr xs)) user ↔ Json.str user.id ∈ xs := by
  cases xs with
  | nil => exact absurd rfl hne
  | cons x xs => rfl

/-- A socket of a user with any given non-empty id. -/
def userNamed (id : JsString) (h : id ≠ []) : AuthUser := ⟨id, [], [], h⟩

theorem oneRoom_iff (room : Value) :
    OneRoom room ↔ ∃ u : JsString, ∀ user, Reaches room user → user.id = u := by
  by_cases harray : ∃ xs, room = .json (.arr xs)
  · obtain ⟨xs, rfl⟩ := harray
    by_cases hne : xs = []
    · subst hne
      simp only [OneRoom, ne_eq, not_true_eq_false, false_and, false_iff, not_exists]
      intro u hu
      have hab : alice.id = bob.id := (hu alice trivial).trans (hu bob trivial).symm
      exact absurd hab (by decide)
    · simp only [OneRoom, hne, ne_eq, not_false_eq_true, true_and, reaches_array hne]
      constructor
      · intro h
        by_cases hex : ∃ user : AuthUser, Json.str user.id ∈ xs
        · obtain ⟨user₀, h₀⟩ := hex
          exact ⟨user₀.id, fun user hu => h user.id user₀.id user.id_ne user₀.id_ne hu h₀⟩
        · exact ⟨[], fun user hu => absurd ⟨user, hu⟩ hex⟩
      · rintro ⟨u, hu⟩ a b ha hb hax hbx
        exact (hu (userNamed a ha) hax).trans (hu (userNamed b hb) hbx).symm
  · have hnot : ∀ xs, room ≠ .json (.arr xs) := fun xs h => harray ⟨xs, h⟩
    have hone : OneRoom room := by
      unfold OneRoom
      split
      · exact absurd rfl (hnot _)
      · trivial
    refine iff_of_true hone ?_
    by_cases hex : ∃ user : AuthUser, Reaches room user
    · obtain ⟨user₀, h₀⟩ := hex
      refine ⟨user₀.id, fun user hu => ?_⟩
      rw [reaches_of_not_array hnot] at h₀ hu
      simpa using hu.symm.trans h₀
    · exact ⟨[], fun user hu => absurd ⟨user, hu⟩ hex⟩

section Events

variable (c : Conditions) (here : Surroundings) (user : AuthUser)

theorem handleTyping_emits {data : Value} (h : ¬ data.Nullish) (w : World Table) :
    ∃ isTyping w', (.emit (data.field "receiverId") (.typing user.id isTyping), w') ∈
      (handleTyping user.id data).trace (exec (verbatim c) here) w := by
  simp only [handleTyping, readField, sync, Value.destructure_of_not_nullish h, Program.bind_eq,
    Program.bind_ok, Program.trace_bind, clearTypingTimeout_run, Program.resumeTrace_ok]
  cases (data.field "isTyping").truthy with
  | true => exact ⟨true, typingCleared w user.id, by simp [perform]⟩
  | false => exact ⟨false, typingCleared w user.id, by simp [perform]⟩

theorem typing_wellAddressed_iff (args : List Value) (w : World Table) :
    WellAddressed ((listener user .typing args).trace (exec (verbatim c) here) w) ↔
      OneRoom ((argument args 0).field "receiverId") := by
  have hissues := listener_typing_issues user args
  rw [oneRoom_iff]
  constructor
  · intro h
    by_cases hd : (argument args 0).Nullish
    · refine ⟨[], fun user hu => ?_⟩
      rw [Value.field_of_nullish hd] at hu
      cases hu
    · obtain ⟨u, hu⟩ := h.single
      obtain ⟨isTyping, w', hmem⟩ := handleTyping_emits c here user hd w
      have hlistener :
          (.emit ((argument args 0).field "receiverId") (.typing user.id isTyping), w') ∈
          (listener user .typing args).trace (exec (verbatim c) here) w := by
        rw [listener, uncaught, Program.trace_tryCatch]
        exact List.mem_append_left _ hmem
      exact ⟨u, hu _ w' hlistener _ _ (.inl rfl)⟩
  · rintro ⟨u, hu⟩
    constructor
    · refine ⟨u, fun op w' hop room event hsends => ?_⟩
      have hroom : room = (argument args 0).field "receiverId" := by
        rcases hissues.mem_trace (exec (verbatim c) here) hop with hfoot | hcrash
        · rcases hsends with rfl | ⟨userId, rfl, -⟩
          · cases event with
            | typing u b => exact hfoot.1
            | _ => exact hfoot.elim
          · exact hfoot.2
        · rcases hsends with rfl | ⟨userId, rfl, -⟩
          · exact hcrash.elim
          · exact hcrash.elim
      exact hroom ▸ hu
    · intro room cm w' hop
      rcases hissues.mem_trace (exec (verbatim c) here) hop with hfoot | hcrash
      · exact hfoot.elim
      · exact hcrash.elim

variable {c here user}

/-- An emission of a message event goes to the receiver it names and belongs to a stored row
of that receiver; unless the event stored the row, the receiver is no array. -/
theorem sendMessage_emission {args : List Value} {room : Value} {event : ServerEvent}
    {w w' : World Table}
    (h : (.emit room event, w') ∈
      (listener user .sendMessage args).trace (exec (verbatim c) here) w) :
    room = (argument args 0).field "receiverId" ∧
      ((∀ xs, room ≠ .json (.arr xs)) ∨ Accepts (verbatim c) user (argument args 0) w.db) ∧
      ∃ row ∈ w'.db.rows, .json row.receiverId = room ∧
        (event = .typing user.id false ∨
          event = .receiveMessage (formatMessageForClient row user.username)) := by
  rw [listener, floating, Program.trace_tryCatch, List.mem_append] at h
  rcases h with h | h
  · rcases mem_handleSendMessage_trace h with htry | hfail
    · rcases trySendMessage_cases user (argument args 0) (argument args 1) with
        ⟨-, hrun⟩ | ⟨error, -, hrun⟩ | ⟨trimmed, -, hrun⟩ | ⟨trimmed, hv, hrun⟩
      · rw [hrun] at htry
        cases htry
      · rw [hrun, acknowledgeWith_trace, mem_map_world] at htry
        cases mem_ackEffects htry.1
      · rw [hrun, resendAndDeliver_trace, List.mem_cons] at htry
        rcases htry with htry | htry
        · cases htry
        · obtain ⟨found, row, hfound, hres, rfl, rfl, hevent⟩ := emit_mem_resend htry
          obtain ⟨rfl, howned, -⟩ := resendable_eq_ok hres
          obtain ⟨heq, harray⟩ := Value.eq_of_strictEq (Bool.and_eq_true_iff.mp howned).2
          refine ⟨rfl, .inl harray, row, ?_, heq, hevent⟩
          rw [typingCleared_db]
          exact (statements_findOne_eq_some hfound).1
      · rw [hrun, storeAndDeliver_trace, List.mem_cons] at htry
        rcases htry with htry | htry
        · cases htry
        · obtain ⟨row, hrow, rfl, rfl, hevent⟩ := emit_mem_store htry
          have htruthy := (verdict_eq_store hv).receiverId_truthy
          refine ⟨rfl, .inr ⟨trimmed, row, hv, hrow⟩, row, ?_, ?_, hevent⟩
          · rw [typingCleared_db]
            simpa using statements_insert_mem hrow
          · rw [(statements_insert_ok hrow).1]
            exact Value.json_column_field htruthy
    · exact hfail.elim
  · split at h
    · cases h
    · simp [perform] at h

theorem noArrayAudience_iff (room : Value) :
    NoArrayAudience room ↔ ∀ user, Reaches room user → room = .json (.str user.id) := by
  by_cases harray : ∃ xs, room = .json (.arr xs)
  · obtain ⟨xs, rfl⟩ := harray
    constructor
    · rintro ⟨hne, hxs⟩ user hu
      exact absurd ((reaches_array hne user).mp hu) (hxs user.id user.id_ne)
    · intro h
      have hne : xs ≠ [] := by
        rintro rfl
        cases h alice trivial
      refine ⟨hne, fun a ha hax => ?_⟩
      cases h (userNamed a ha) ((reaches_array hne (userNamed a ha)).mpr hax)
  · have hnot : ∀ xs, room ≠ .json (.arr xs) := fun xs h => harray ⟨xs, h⟩
    refine iff_of_true ?_ fun user hu => (reaches_of_not_array hnot user).mp hu
    unfold NoArrayAudience
    split
    · exact absurd rfl (hnot _)
    · trivial

theorem sendMessage_wellAddressed_iff (args : List Value) (w : World Table) :
    WellAddressed ((listener user .sendMessage args).trace (exec (verbatim c) here) w) ↔
      (Accepts (verbatim c) user (argument args 0) w.db →
        NoArrayAudience ((argument args 0).field "receiverId")) := by
  constructor
  · rintro h ⟨trimmed, saved, hv, hi⟩
    rw [noArrayAudience_iff]
    intro reached hu
    obtain ⟨w', hmem⟩ : ∃ w', (.emit ((argument args 0).field "receiverId")
        (.receiveMessage (formatMessageForClient saved user.username)), w') ∈
      (listener user .sendMessage args).trace (exec (verbatim c) here) w := accepted_emission hv hi
    obtain ⟨row, -, username, hcm, hrow⟩ := h.receiver _ _ w' hmem reached hu
    have hreceiver : saved.receiverId = row.receiverId := congrArg ClientMessage.receiverId hcm
    have hcolumn : ((argument args 0).field "receiverId").column = .str reached.id := by
      rw [← hrow, ← hreceiver, (statements_insert_ok hi).1]
      rfl
    exact Value.eq_str_of_column hcolumn
  · intro h
    have hroom : ∀ {room event w'}, (.emit room event, w') ∈
        (listener user .sendMessage args).trace (exec (verbatim c) here) w →
        ∀ reached, Reaches room reached → room = .json (.str reached.id) := by
      intro room event w' hmem reached hu
      obtain ⟨rfl, hnot | haccepts, -⟩ := sendMessage_emission hmem
      · exact (reaches_of_not_array hnot reached).mp hu
      · exact (noArrayAudience_iff _).mp (h haccepts) reached hu
    constructor
    · by_cases hstr : ∃ u, (argument args 0).field "receiverId" = .json (.str u)
      · obtain ⟨u, hu⟩ := hstr
        refine ⟨u, fun op w' hmem room event hsends reached hreached => ?_⟩
        rcases hsends with rfl | ⟨userId, rfl, -⟩
        · have hreceiver := (sendMessage_emission hmem).1
          have hreached' := hroom hmem reached hreached
          rw [hreceiver, hu] at hreached'
          simpa using hreached'.symm
        · exact ((listener_sendMessage_issues user args).mem_trace _ hmem).elim
      · refine ⟨[], fun op w' hmem room event hsends reached hreached => ?_⟩
        rcases hsends with rfl | ⟨userId, rfl, -⟩
        · have hreceiver := (sendMessage_emission hmem).1
          exact absurd ⟨reached.id, hreceiver ▸ hroom hmem reached hreached⟩ hstr
        · exact ((listener_sendMessage_issues user args).mem_trace _ hmem).elim
    · intro room cm w' hmem reached hu
      obtain ⟨-, -, row, hrow, hreceiver, hevent⟩ := sendMessage_emission hmem
      rcases hevent with hevent | hevent
      · cases hevent
      · refine ⟨row, hrow, user.username, ServerEvent.receiveMessage.inj hevent, ?_⟩
        exact Value.json.inj (hreceiver.trans (hroom hmem reached hu))

end Events

/-- A typing event is well addressed exactly when its receiver names at most one room, and a
message event exactly when it stores nothing or its receiver is not an audience. -/
theorem audience_iff (c : Conditions) (here : Surroundings) (user : AuthUser) (packet : Packet)
    (w : World Table) :
    (WellAddressed ((listener user .typing packet.arguments).trace (exec (verbatim c) here) w) ↔
      OneRoom ((argument packet.arguments 0).field "receiverId")) ∧
    (WellAddressed
        ((listener user .sendMessage packet.arguments).trace (exec (verbatim c) here) w) ↔
      (Accepts (verbatim c) user (argument packet.arguments 0) w.db →
        NoArrayAudience ((argument packet.arguments 0).field "receiverId"))) :=
  ⟨typing_wellAddressed_iff c here user packet.arguments w,
    sendMessage_wellAddressed_iff packet.arguments w⟩

/-- A typing event for `alice` and `bob` at once. -/
def typingToBoth : Packet :=
  ⟨[.obj [(js "receiverId", .arr [.str alice.id, .str bob.id]), (js "isTyping", .bool true)]],
    false⟩

/-- An encrypted message to the empty array, which is every connected socket. -/
def messageToAll : Packet :=
  ⟨[.obj [(js "senderId", .str alice.id), (js "receiverId", .arr []),
    (js "message", .str envelope)]], false⟩

theorem several_receivers :
    (¬ WellAddressed ((listener alice .typing typingToBoth.arguments).trace
      (exec (verbatim calm) quiet) World.empty)) ∧
    ¬ WellAddressed ((listener alice .sendMessage messageToAll.arguments).trace
      (exec (verbatim calm) quiet) World.empty) := by
  constructor
  · rw [typing_wellAddressed_iff]
    rintro ⟨-, h⟩
    have heq : alice.id = bob.id :=
      h alice.id bob.id alice.id_ne bob.id_ne (by decide) (by decide)
    exact absurd heq (by decide)
  · rw [sendMessage_wellAddressed_iff]
    intro h
    have haccepts : Accepts (verbatim calm) alice (argument messageToAll.arguments 0)
        World.empty.db :=
      ⟨envelope, (encryptedMessage alice.id (.json (.arr [])) envelope).toRow (js "m1") 0,
        by decide +kernel, by decide +kernel⟩
    exact (h haccepts).1 rfl

end ChatMicroservices.EventAudience

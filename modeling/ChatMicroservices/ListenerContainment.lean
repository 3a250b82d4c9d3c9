import ChatMicroservices.HandlerFootprints

/-!
# Exceptions that leave a listener

Which events reach the process hooks. Receipts never do. A typing event does when its
payload is `undefined` or `null`, since the handler destructures it outside any `try`. A
message does when its acknowledgement argument is a value that cannot be called, since the
`catch` block calls it again, and when the lookup of an offline receiver cannot be sent.
-/

namespace ChatMicroservices.ListenerContainment
open JavaScriptValues EffectPrograms MessagesTable ChatEffects MessageNotification
open SocketHandlers SendMessageRuns HandlerFootprints

section Combinators

variable {τ : Type} (repo : Repository τ) (here : Surroundings)

theorem contained_of_issues {α : Type} {p : Handler α} (h : p.Issues fun op => ¬ IsCrash op)
    (w : World τ) : Contained (p.trace (exec repo here) w) := by
  intro op hop
  obtain ⟨⟨op', t⟩, ht, rfl⟩ := List.mem_map.mp hop
  exact h.mem_trace (exec repo here) ht

theorem contained_of_footprint {α : Type} {F : Op → Prop} {p : Handler α} (h : p.Issues F)
    (hF : ∀ op, F op → ¬ IsCrash op) (w : World τ) : Contained (p.trace (exec repo here) w) :=
  contained_of_issues repo here (h.mono hF) w

/-- The run of `p` throws nothing. -/
def Returns {α : Type} (p : Handler α) (w : World τ) : Prop :=
  ∃ a, (p.run (exec repo here) w).1 = .ok a

/-- An exception handler that always crashes contains what returns, and nothing else. -/
theorem contained_tryCatch_iff {α : Type} (p : Handler α) {h : JsError → Handler α}
    (hcrash : ∀ e (w : World τ), ¬ Contained ((h e).trace (exec repo here) w)) (w : World τ) :
    Contained ((p.tryCatch h).trace (exec repo here) w) ↔
      Contained (p.trace (exec repo here) w) ∧ Returns repo here p w := by
  unfold Returns
  rw [Program.trace_tryCatch, contained_append]
  rcases p.run (exec repo here) w with ⟨r, w'⟩
  cases r with
  | ok a => simp
  | error e => simp [hcrash e w']

theorem contained_floating_iff (p : Handler Unit) (w : World τ) :
    Contained ((floating p).trace (exec repo here) w) ↔
      Contained (p.trace (exec repo here) w) ∧ Returns repo here p w :=
  contained_tryCatch_iff repo here p (fun e w => by simp [perform, IsCrash]) w

theorem contained_uncaught_iff (p : Handler Unit) (w : World τ) :
    Contained ((uncaught p).trace (exec repo here) w) ↔
      Contained (p.trace (exec repo here) w) ∧ Returns repo here p w :=
  contained_tryCatch_iff repo here p (fun e w => by simp [perform, IsCrash]) w

end Combinators

section Listeners

variable {τ : Type} (repo : Repository τ) (here : Surroundings) (user : AuthUser)

theorem clearTypingTimeout_ends (userId : JsString) :
    (clearTypingTimeout userId).Ends fun r => r = .ok () := by
  intro has
  cases has with
  | false => rfl
  | true => exact fun _ => rfl

theorem handleTyping_ends (userId : JsString) {data : Value} (h : ¬ data.Nullish) :
    (handleTyping userId data).Ends fun r => r = .ok () := by
  simp only [handleTyping, readField, sync, Value.destructure_of_not_nullish h, Program.bind_eq,
    Program.bind_ok]
  refine (clearTypingTimeout_ends userId).bind (fun _ _ => ?_) fun _ h => h
  split
  · exact fun _ _ => rfl
  · exact fun _ => rfl

theorem returns_handleTyping_iff (data : Value) (w : World τ) :
    Returns repo here (handleTyping user.id data) w ↔ ¬ data.Nullish := by
  constructor
  · rintro ⟨_, hr⟩ h
    simp [handleTyping, readField, Value.destructure_of_nullish h] at hr
  · intro h
    exact ⟨(), (handleTyping_ends user.id h).run (exec repo here) w⟩

theorem typing_contained_iff (args : List Value) (w : World τ) :
    Contained ((listener user .typing args).trace (exec repo here) w) ↔
      ¬ (argument args 0).Nullish := by
  rw [listener, contained_uncaught_iff, returns_handleTyping_iff, and_iff_right]
  refine contained_of_footprint repo here (handleTyping_issues user.id _) (fun op hop => ?_) w
  cases op <;> first | exact id | cases hop

theorem messageDelivered_contained (args : List Value) (w : World τ) :
    Contained ((listener user .messageDelivered args).trace (exec repo here) w) := by
  refine contained_of_footprint repo here
    (logged_issues (handleMessageDelivered_issues user.id _)) (fun op hop => ?_) w
  cases op <;> first | exact id | cases hop

theorem markRead_contained (args : List Value) (w : World τ) :
    Contained ((listener user .markRead args).trace (exec repo here) w) := by
  refine contained_of_footprint repo here
    (logged_issues (handleMarkRead_issues user.id _)) (fun op hop => ?_) w
  cases op <;> first | exact id | cases hop

theorem deliver_throws (receiverId : Value) (msg : Message) {ack : Value}
    (h : ¬ CanAcknowledge ack) :
    (deliver user receiverId msg ack).Ends fun r => ∃ e, r = .error e := by
  refine (clearTypingTimeout_ends user.id).bind (fun _ _ => ?_) (by simp)
  rw [acknowledgeWith_throws h]
  exact fun _ _ => ⟨_, rfl⟩

theorem trySendMessage_throws (data : Value) {ack : Value} (h : ¬ CanAcknowledge ack) :
    (trySendMessage user data ack).Ends fun r => ∃ e, r = .error e := by
  rcases trySendMessage_cases user data ack with
    ⟨-, hrun⟩ | ⟨error, -, hrun⟩ | ⟨trimmed, -, hrun⟩ | ⟨trimmed, -, hrun⟩
  all_goals rw [hrun]
  · exact ⟨_, rfl⟩
  · rw [acknowledgeWith_throws h]
    exact ⟨_, rfl⟩
  · rw [resendAndDeliver_eq]
    refine (Program.ends_anything _).bind (fun found _ => ?_) fun e _ => ⟨e, rfl⟩
    cases resendable user (data.field "receiverId") found with
    | error e =>
      simp only [acknowledgeWith_throws h]
      exact ⟨_, rfl⟩
    | ok existing => exact deliver_throws user _ existing h
  · refine (Program.ends_anything _).bind (fun saved _ => ?_) fun e _ => ⟨e, rfl⟩
    exact (Program.ends_anything _).bind (fun _ _ => deliver_throws user _ saved h)
      fun e _ => ⟨e, rfl⟩

/-- The `catch` block saves the event only if it can acknowledge. -/
theorem returns_handleSendMessage_iff (data ack : Value) (w : World τ) :
    Returns repo here (handleSendMessage user data ack) w ↔ CanAcknowledge ack := by
  constructor
  · rintro ⟨_, hr⟩
    by_contra h
    have hends : (handleSendMessage user data ack).Ends fun r => ∃ e, r = .error e := by
      refine (trySendMessage_throws user data h).tryCatch (by simp) fun e _ => ?_
      rw [reportFailure, acknowledgeWith_throws h]
      exact ⟨_, rfl⟩
    obtain ⟨e, he⟩ := hends.run (exec repo here) w
    rw [hr] at he
    cases he
  · intro h
    have hends : (handleSendMessage user data ack).Ends fun r => r = .ok () := by
      refine (Program.ends_anything _).tryCatch (fun _ _ => rfl) fun e _ => ?_
      exact (acknowledgeWith_ends h _).bind (fun _ _ _ => rfl) fun _ h => h
    exact ⟨(), hends.run (exec repo here) w⟩

/-- The message of the event is new, passes every check and is stored. -/
def Accepts (data : Value) (db : τ) : Prop :=
  ∃ trimmed saved, verdict user data = .store trimmed ∧
    (repo.insert none (encryptedMessage user.id (data.field "receiverId") trimmed) db).1 =
      .ok saved

theorem contained_map_iff (ops : List Op) (w : World τ) :
    Contained (ops.map fun op => (op, w)) ↔ ∀ op ∈ ops, ¬ IsCrash op := by
  simp [Contained, effects]

theorem ackEffects_contained (ack : Value) (res : AckResult) :
    ∀ op ∈ ackEffects ack res, ¬ IsCrash op := by
  intro op hop
  obtain rfl := mem_ackEffects hop
  exact id

theorem clearingTrace_contained (w : World τ) (userId : JsString) :
    Contained (clearingTrace w userId) := by
  unfold clearingTrace
  split <;> simp [IsCrash]

theorem deliveryEffects_contained (receiverId : Value) (msg : Message) (ack : Value) :
    ∀ op ∈ deliveryEffects user receiverId msg ack, ¬ IsCrash op := by
  simp only [deliveryEffects, List.mem_append]
  rintro op (hop | hop)
  · rcases List.mem_pair.mp hop with rfl | rfl <;> exact id
  · exact ackEffects_contained ack _ op hop

theorem resendTrace_contained (receiverId ack : Value)
    (found : Except JsError (Option Message)) (w : World τ) :
    Contained (resendTrace user receiverId ack found w) := by
  cases found with
  | error e => exact contained_nil
  | ok found =>
    simp only [resendTrace]
    cases resendable user receiverId found with
    | error e => exact (contained_map_iff _ w).mpr (ackEffects_contained ack _)
    | ok existing =>
      exact (contained_append _ _).mpr ⟨clearingTrace_contained w user.id,
        (contained_map_iff _ _).mpr (deliveryEffects_contained user receiverId existing ack)⟩

theorem storeTrace_contained_iff (receiverId : Value) (trimmed : JsString) (ack : Value)
    (saved : Message) (w : World τ) :
    Contained (storeTrace here user receiverId trimmed ack (.ok saved) w) ↔
      LookupWorks here receiverId := by
  have hnotify := receivedEffects_contained_iff here (notification user receiverId trimmed)
  have hdeliver := deliveryEffects_contained user receiverId saved ack
  have hclear := clearingTrace_contained w user.id
  simp only [storeTrace, contained_append, contained_map_iff, hnotify]
  exact ⟨fun h => h.1.1, fun h => ⟨⟨h, hclear⟩, hdeliver⟩⟩

theorem trySendMessage_contained_iff (data ack : Value) (w : World τ) :
    Contained ((trySendMessage user data ack).trace (exec repo here) w) ↔
      (Accepts repo user data w.db → LookupWorks here (data.field "receiverId")) := by
  rcases trySendMessage_cases user data ack with
    ⟨hd, hrun⟩ | ⟨error, hv, hrun⟩ | ⟨trimmed, hv, hrun⟩ | ⟨trimmed, hv, hrun⟩
  · simp [hrun, Accepts, verdict_nullish user hd]
  · simp only [hrun, acknowledgeWith_trace, contained_map_iff, Accepts, hv]
    simpa using ackEffects_contained ack (.fail error)
  · simp only [hrun, resendAndDeliver_trace, contained_cons, Accepts, hv]
    simpa [IsCrash] using resendTrace_contained user _ ack _ _
  · simp only [hrun, storeAndDeliver_trace, contained_cons, Accepts, hv]
    cases hi : (repo.insert none
        (encryptedMessage user.id (data.field "receiverId") trimmed) w.db).1 with
    | error e => simp [storeTrace, IsCrash, hi]
    | ok saved => simp [storeTrace_contained_iff, IsCrash, hi]

theorem handleSendMessage_contained_iff (data ack : Value) (w : World τ) :
    Contained ((handleSendMessage user data ack).trace (exec repo here) w) ↔
      (Accepts repo user data w.db → LookupWorks here (data.field "receiverId")) := by
  rw [handleSendMessage, Program.trace_tryCatch, contained_append,
    trySendMessage_contained_iff, and_iff_left_iff_imp]
  intro _
  split
  · exact contained_nil
  · refine contained_of_footprint repo here (reportFailure_issues ack) (fun op hop => ?_) _
    cases op <;> first | exact id | cases hop

theorem sendMessage_contained_iff (args : List Value) (w : World τ) :
    Contained ((listener user .sendMessage args).trace (exec repo here) w) ↔
      CanAcknowledge (argument args 1) ∧ (Accepts repo user (argument args 0) w.db →
        LookupWorks here ((argument args 0).field "receiverId")) := by
  rw [listener, contained_floating_iff, returns_handleSendMessage_iff,
    handleSendMessage_contained_iff, and_comm]

/-- What keeps an event away from the process hooks: a payload that can be destructured
for `typing`; for `sendMessage` an acknowledgement argument that is absent or a callback,
and a receiver that is online or can be looked up if the message is accepted. -/
def HandledSafely (event : ClientEvent) (args : List Value) (db : τ) : Prop :=
  match event with
  | .typing => ¬ (argument args 0).Nullish
  | .sendMessage => CanAcknowledge (argument args 1) ∧ (Accepts repo user (argument args 0) db →
      LookupWorks here ((argument args 0).field "receiverId"))
  | .messageDelivered | .markRead => True

theorem listener_contained_iff (event : ClientEvent) (packet : Packet) (w : World τ) :
    Contained ((listener user event packet.arguments).trace (exec repo here) w) ↔
      HandledSafely repo here user event packet.arguments w.db := by
  cases event with
  | typing => exact typing_contained_iff repo here user _ w
  | sendMessage => exact sendMessage_contained_iff repo here user _ w
  | messageDelivered => exact iff_of_true (messageDelivered_contained repo here user _ w) trivial
  | markRead => exact iff_of_true (markRead_contained repo here user _ w) trivial

end Listeners

/-- A `typing` event without a payload and a message whose acknowledgement argument is a
number both shut the service down. -/
theorem listener_crashes :
    (¬ Contained ((listener alice .typing (Packet.arguments ⟨[], false⟩)).trace
      (exec (postgres calm) quiet) World.empty)) ∧
    ¬ Contained ((listener alice .sendMessage
      (Packet.arguments ⟨[.null, .num (.finite 1)], false⟩)).trace
      (exec (postgres calm) quiet) World.empty) := by
  decide

end ChatMicroservices.ListenerContainment

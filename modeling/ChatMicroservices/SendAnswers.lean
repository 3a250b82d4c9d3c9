import ChatMicroservices.HandlerFootprints

/-!
# The answers of the send paths

An event is acknowledged once: with the id of a message that is stored and was emitted to its
receiver, or with a failure after which nothing was stored and nothing emitted. A request ends
with a stored message, or with an error and nothing stored. A message is stored when the table
has a row with its id: the columns may hold its texts in another encoding.
-/

namespace ChatMicroservices.SendAnswers
open JavaScriptValues EffectPrograms KeyedTables MessagesTable ChatEffects MessageNotification
open SocketHandlers SendMessageRuns HandlerFootprints MessageController SendRequestRuns

def acknowledged : Op → Option AckResult
  | .acknowledge res => some res
  | _ => none

/-- The room and the message of a `receiveMessage` event. -/
def received : Op → Option (Value × ClientMessage)
  | .emit room (.receiveMessage message) => some (room, message)
  | _ => none

/-- The table has the row of the message. -/
def Stored (t : Table) (m : Message) : Prop := ∃ row ∈ t.rows, row.id = m.id

/-- The effects `ops` of an event answer it, and the table has become `t'`. -/
inductive Answered (user : AuthUser) (t t' : Table) (ops : List Op) : Prop where
  | ok (m : Message) (room : Value) (hack : ops.filterMap acknowledged = [.ok m.id])
      (hstored : Stored t' m)
      (hsent : ops.filterMap received = [(room, formatMessageForClient m user.username)])
  | fail (error : String) (hack : ops.filterMap acknowledged = [.fail error]) (htable : t' = t)
      (hsent : ops.filterMap received = [])

section Silent

variable {ops : List Op}

/-- Neither an acknowledgement nor a message to a receiver. -/
def Silent (op : Op) : Prop := acknowledged op = none ∧ received op = none

theorem filterMap_of_silent (h : ∀ op ∈ ops, Silent op) :
    ops.filterMap acknowledged = [] ∧ ops.filterMap received = [] :=
  ⟨List.filterMap_eq_nil_iff.mpr fun op hop => (h op hop).1,
    List.filterMap_eq_nil_iff.mpr fun op hop => (h op hop).2⟩

theorem silent_of_notifies {op : Op} (h : Notifies op) : Silent op := by
  cases op with
  | isOnline userId => exact ⟨rfl, rfl⟩
  | registerCallback => exact ⟨rfl, rfl⟩
  | sendRequest correlationId userId => exact ⟨rfl, rfl⟩
  | awaitCallback => exact ⟨rfl, rfl⟩
  | publish payload => exact ⟨rfl, rfl⟩
  | unhandledRejection e => exact ⟨rfl, rfl⟩
  | _ => exact absurd h id

theorem silent_clearing {τ : Type} (w : World τ) (userId : JsString) :
    ∀ op ∈ effects (clearingTrace w userId), Silent op := by
  intro op hop
  obtain ⟨⟨op', w'⟩, hmem, rfl⟩ := List.mem_map.mp hop
  rcases mem_clearingTrace hmem with rfl | rfl
  · exact ⟨rfl, rfl⟩
  · exact ⟨rfl, rfl⟩

theorem silent_of_issues {τ α : Type} {repo : Repository τ} {here : Surroundings}
    {p : Handler α} (hp : p.Issues Silent) (w : World τ) :
    ∀ op ∈ effects (p.trace (exec repo here) w), Silent op := by
  intro op hop
  obtain ⟨e, he, rfl⟩ := List.mem_map.mp hop
  exact hp.mem_trace (exec repo here) he

/-- Silent effects before an answer make no difference. -/
theorem Answered.of_append {user : AuthUser} {t t' : Table} {before : List Op}
    (hbefore : ∀ op ∈ before, Silent op) (h : Answered user t t' ops) :
    Answered user t t' (before ++ ops) := by
  obtain ⟨hacks, hreceived⟩ := filterMap_of_silent hbefore
  cases h with
  | ok m room hack hstored hsent =>
    apply Answered.ok m room
    · rw [List.filterMap_append, hacks, List.nil_append, hack]
    · exact hstored
    · rw [List.filterMap_append, hreceived, List.nil_append, hsent]
  | fail error hack htable hsent =>
    apply Answered.fail error
    · rw [List.filterMap_append, hacks, List.nil_append, hack]
    · exact htable
    · rw [List.filterMap_append, hreceived, List.nil_append, hsent]

end Silent

section Events

variable (c : Conditions) (here : Surroundings) (user : AuthUser)

/-- A delivery is answered with the id of its message. -/
theorem deliver_answered {t t' : Table} {m : Message} (hm : Stored t' m) (receiverId : Value)
    {w : World Table} : Answered user t t'
      (effects ((deliver user receiverId m .function).trace (exec (postgres c) here) w)) := by
  rw [deliver_trace, effects_append, effects_map]
  apply Answered.of_append (silent_clearing w user.id)
  exact .ok m receiverId rfl hm rfl

/-- A run of the `try` block answers the event, or throws before it has answered or changed
anything. -/
inductive Attempted (t : Table) (outcome : Except JsError Unit × World Table) (ops : List Op) :
    Prop where
  | answered (hok : outcome.1 = .ok ()) (h : Answered user t outcome.2.db ops)
  | thrown (e : JsError) (herror : outcome.1 = .error e) (htable : outcome.2.db = t)
      (hsilent : ∀ op ∈ ops, Silent op)

/-- From `w`, the program `p` attempts an event that met the table `t`. -/
def Attempts (p : Handler Unit) (t : Table) (w : World Table) : Prop :=
  Attempted user t (p.run (exec (postgres c) here) w)
    (effects (p.trace (exec (postgres c) here) w))

variable {c here user}

theorem Attempted.of_append {t : Table} {outcome : Except JsError Unit × World Table}
    {before ops : List Op} (hbefore : ∀ op ∈ before, Silent op)
    (h : Attempted user t outcome ops) : Attempted user t outcome (before ++ ops) := by
  cases h with
  | answered hok h => exact .answered hok (h.of_append hbefore)
  | thrown e herror htable hsilent =>
    apply Attempted.thrown e herror htable
    intro op hop
    rcases List.mem_append.mp hop with hop | hop
    · exact hbefore op hop
    · exact hsilent op hop

/-- A silent program that returns leaves the attempt to what follows it. -/
theorem Attempts.bind {α : Type} {p : Handler α} {f : α → Handler Unit} {t : Table} {a : α}
    {w w' : World Table} (hp : p.Issues Silent)
    (hrun : p.run (exec (postgres c) here) w = (.ok a, w'))
    (h : Attempts c here user (f a) t w') : Attempts c here user (p.bind f) t w := by
  unfold Attempts
  rw [Program.run_bind, Program.trace_bind, hrun, effects_append]
  exact Attempted.of_append (silent_of_issues hp w) h

/-- A silent program that throws and leaves the table as it was has attempted the event. -/
theorem Attempts.bind_error {α : Type} {p : Handler α} {f : α → Handler Unit} {e : JsError}
    {w w' : World Table} (hp : p.Issues Silent)
    (hrun : p.run (exec (postgres c) here) w = (.error e, w')) (htable : w'.db = w.db) :
    Attempts c here user (p.bind f) w.db w := by
  unfold Attempts
  rw [Program.run_bind, Program.trace_bind, hrun, effects_append]
  apply Attempted.thrown e rfl htable
  simpa using silent_of_issues hp w

variable (c here user)

theorem deliver_attempts {t : Table} {m : Message} (receiverId : Value) {w : World Table}
    (hm : Stored w.db m) : Attempts c here user (deliver user receiverId m .function) t w := by
  have hrun : (deliver user receiverId m .function).run (exec (postgres c) here) w =
      (.ok (), typingCleared w user.id) := by
    simp only [deliver, Program.bind_eq, Program.run_bind, clearTypingTimeout_run,
      Program.resume_ok]
    rfl
  have hdb : (typingCleared w user.id).db = w.db := typingCleared_db w user.id
  unfold Attempts
  rw [hrun]
  exact .answered rfl (deliver_answered c here user (hdb ▸ hm) receiverId)

theorem refuse_attempts (error : String) (w : World Table) :
    Attempts c here user (acknowledgeWith .function (.fail error)) w.db w :=
  .answered rfl (.fail error rfl rfl rfl)

theorem stored_of_insert {id : Option JsString} {row : NewMessage} {t : Table} {saved : Message}
    (h : ((postgres c).insert id row t).1 = .ok saved) :
    Stored ((postgres c).insert id row t).2 saved := ⟨_, statements_insert_mem h, rfl⟩

theorem stored_of_resendable {t : Table} {id receiverId : Value} {found : Option Message}
    (hf : ((postgres c).findOne id t).1 = .ok found) {existing : Message}
    (h : resendable user receiverId found = .ok existing) : Stored t existing := by
  cases found with
  | none => cases h
  | some m =>
    have hm : m ∈ t.rows := (statements_findOne_eq_some hf).1
    simp only [resendable] at h
    split at h
    · cases h
    · split at h
      · cases h
      · exact ⟨m, hm, congrArg Message.id (Except.ok.inj h)⟩

theorem resendAndDeliver_attempts (data : Value) (trimmed : JsString) (w : World Table) :
    Attempts c here user (resendAndDeliver user data trimmed .function) w.db w := by
  have hlookup : (Program.attempt (perform (.findOne (data.field "_id")))).Issues Silent :=
    (perform_issues ⟨rfl, rfl⟩).attempt
  have hrun : (Program.attempt (perform (.findOne (data.field "_id")))).run
      (exec (postgres c) here) w = (((postgres c).findOne (data.field "_id") w.db).1, w) := rfl
  rw [resendAndDeliver_eq]
  cases hf : ((postgres c).findOne (data.field "_id") w.db).1 with
  | error e =>
    rw [hf] at hrun
    exact Attempts.bind_error hlookup hrun rfl
  | ok found =>
    rw [hf] at hrun
    apply Attempts.bind hlookup hrun
    cases hr : resendable user (data.field "receiverId") found with
    | error e => exact refuse_attempts c here user e w
    | ok existing => exact deliver_attempts c here user _ (stored_of_resendable c user hf hr)

theorem storeAndDeliver_attempts (receiverId : Value) (trimmed : JsString) (w : World Table) :
    Attempts c here user (storeAndDeliver user receiverId trimmed .function) w.db w := by
  let row := encryptedMessage user.id receiverId trimmed
  have hinsert : (Program.attempt (perform (.insert none row))).Issues Silent :=
    (perform_issues ⟨rfl, rfl⟩).attempt
  have hrun : (Program.attempt (perform (.insert none row))).run (exec (postgres c) here) w =
      (((postgres c).insert none row w.db).1,
        withDb w ((postgres c).insert none row w.db).2) := rfl
  unfold storeAndDeliver
  cases hi : ((postgres c).insert none row w.db).1 with
  | error e =>
    rw [hi] at hrun
    exact Attempts.bind_error hinsert hrun (statements_insert_error hi)
  | ok saved =>
    rw [hi] at hrun
    apply Attempts.bind hinsert hrun
    have hnotify : (logged (handleMessageReceived
        (notification user receiverId trimmed))).Issues Silent :=
      logged_issues ((handleMessageReceived_notifies _).mono fun _ => silent_of_notifies)
    apply Attempts.bind hnotify
    · rw [logged, Program.run_tryCatch, handleMessageReceived_run]
    · exact deliver_attempts c here user receiverId (stored_of_insert c hi)

/-- The `try` block of `handleSendMessage`. -/
theorem trySendMessage_attempts (data : Value) (w : World Table) :
    Attempts c here user (trySendMessage user data .function) w.db w := by
  rcases trySendMessage_cases user data .function with
    ⟨-, hrun⟩ | ⟨error, -, hrun⟩ | ⟨trimmed, -, hrun⟩ | ⟨trimmed, -, hrun⟩
  all_goals rw [hrun]
  · exact .thrown _ rfl rfl fun op hop => nomatch hop
  · exact refuse_attempts c here user error w
  · exact resendAndDeliver_attempts c here user data trimmed w
  · exact storeAndDeliver_attempts c here user _ trimmed w

/-- The `catch` block answers what the `try` block left unanswered. -/
theorem handleSendMessage_answers (data : Value) (w : World Table) :
    ((handleSendMessage user data .function).run (exec (postgres c) here) w).1 = .ok () ∧
    Answered user w.db
      ((handleSendMessage user data .function).run (exec (postgres c) here) w).2.db
      (effects ((handleSendMessage user data .function).trace (exec (postgres c) here) w)) := by
  have htry : Attempts c here user (trySendMessage user data .function) w.db w :=
    trySendMessage_attempts c here user data w
  rw [handleSendMessage, Program.run_tryCatch, Program.trace_tryCatch, effects_append]
  unfold Attempts at htry
  generalize (trySendMessage user data .function).run (exec (postgres c) here) w = out at *
  obtain ⟨r, w'⟩ := out
  cases htry with
  | answered hok h =>
    obtain rfl : r = .ok () := hok
    exact ⟨rfl, by simpa using h⟩
  | thrown e herror htable hsilent =>
    obtain rfl : r = .error e := herror
    exact ⟨rfl, Answered.of_append hsilent (.fail "Failed to send message" rfl htable rfl)⟩

/-- No rejection of the handler is left for the process hook. -/
theorem listener_sendMessage_answers (data : Value) (w : World Table) :
    Answered user w.db
      ((listener user .sendMessage [data, .function]).run (exec (postgres c) here) w).2.db
      (effects ((listener user .sendMessage [data, .function]).trace
        (exec (postgres c) here) w)) := by
  obtain ⟨hok, h⟩ := handleSendMessage_answers c here user data w
  have hlistener : listener user .sendMessage [data, .function] =
      floating (handleSendMessage user data .function) := rfl
  rw [hlistener, floating, Program.run_tryCatch, Program.trace_tryCatch, effects_append]
  generalize (handleSendMessage user data .function).run (exec (postgres c) here) w = out at *
  obtain ⟨r, w'⟩ := out
  obtain rfl : r = .ok () := hok
  simpa using h

end Events

/-- The request ended with `outcome`, and the table has become `t'`. -/
inductive Ended (t t' : Table) (outcome : Except JsError HttpResult) : Prop where
  | json (status : ℕ) (message : String) (m : Message)
      (houtcome : outcome = .ok (.json status message (.message m))) (hstored : Stored t' m)
  | next (error : JsError) (houtcome : outcome = .ok (.next error)) (htable : t' = t)

section Requests

variable (c : Conditions) (here : Surroundings) (user : AuthUser)

/-- A request that passes the checks ends as its insertion did. -/
theorem sendMessage_ended (body : Value) (w : World Table) :
    Ended w.db ((sendMessage user body).run (exec (postgres c) here) w).2.db
      ((sendMessage user body).run (exec (postgres c) here) w).1 := by
  cases hcheck : checkBody user body with
  | error e =>
    rw [sendMessage_rejected hcheck]
    exact .next e rfl rfl
  | ok text =>
    rw [sendMessage_checked hcheck, storeAndAnswer_run]
    cases hi : ((postgres c).insert none
        (encryptedMessage user.id (body.field "receiverId") text) w.db).1 with
    | error e => exact .next e rfl (statements_insert_error hi)
    | ok saved =>
      exact .json 200 "Message sent successfully" saved rfl (stored_of_insert c hi)

end Requests

/-- In the world `w`, events and requests that send a message are answered for what they did. -/
structure AnswersSends (c : Conditions) (here : Surroundings) (user : AuthUser)
    (w : World Table) : Prop where
  event : ∀ data, Answered user w.db
    ((listener user .sendMessage [data, .function]).run (exec (postgres c) here) w).2.db
    (effects ((listener user .sendMessage [data, .function]).trace (exec (postgres c) here) w))
  request : ∀ body, Ended w.db
    ((sendMessage user body).run (exec (postgres c) here) w).2.db
    ((sendMessage user body).run (exec (postgres c) here) w).1

/-- Whatever fails: presence, the broker and the statements are arbitrary. -/
theorem sends_answered (c : Conditions) (here : Surroundings) (user : AuthUser)
    (w : World Table) : AnswersSends c here user w :=
  ⟨fun data => listener_sendMessage_answers c here user data w,
    fun body => sendMessage_ended c here user body w⟩

end ChatMicroservices.SendAnswers

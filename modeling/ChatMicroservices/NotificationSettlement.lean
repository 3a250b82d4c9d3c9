import ChatMicroservices.NotificationHandlers

/-!
# Settling notifications

Each message of the notifications queue is settled once. Both handlers do their work without
settling, and then acknowledge; a failure on the way leads to a `nack` in place of the `ack`.
-/

namespace ChatMicroservices.NotificationSettlement
open JavaScriptValues EffectPrograms NotificationHandlers

def IsSettlement : Op → Bool
  | .ack | .nack _ => true
  | _ => false

section Runs

variable {σ : Type}

/-- The settlements of a run, in their order. -/
def settlements (t : List (Op × σ)) : List Op := (t.map Prod.fst).filter IsSettlement

@[simp] theorem settlements_append (t t' : List (Op × σ)) :
    settlements (t ++ t') = settlements t ++ settlements t' := by
  rw [settlements, List.map_append, List.filter_append]
  rfl

/-- The channel stays open, so it takes every settlement. -/
structure StaysOpen (exec : (op : Op) → σ → Ans op × σ) : Prop where
  ack : ∀ s, (exec .ack s).1 = .ok ()
  nack : ∀ requeue s, (exec (.nack requeue) s).1 = .ok ()

/-- A row has been saved in the run. -/
def Saved (exec : (op : Op) → σ → Ans op × σ) (t : List (Op × σ)) : Prop :=
  ∃ row s, (.save row, s) ∈ t ∧ (exec (.save row) s).1 = .ok ()

theorem Saved.append_right {exec : (op : Op) → σ → Ans op × σ} {t : List (Op × σ)}
    (h : Saved exec t) (t' : List (Op × σ)) : Saved exec (t ++ t') := by
  obtain ⟨row, s, hmem, hok⟩ := h
  exact ⟨row, s, List.mem_append_left _ hmem, hok⟩

theorem Saved.append_left {exec : (op : Op) → σ → Ans op × σ} {t : List (Op × σ)}
    (h : Saved exec t) (t' : List (Op × σ)) : Saved exec (t' ++ t) := by
  obtain ⟨row, s, hmem, hok⟩ := h
  exact ⟨row, s, List.mem_append_right _ hmem, hok⟩

end Runs

/-- The program performs no settlement. -/
abbrev Unsettled {α : Type} (p : Handler α) : Prop := p.Issues fun op => IsSettlement op = false

/-- Do the work, and acknowledge the message or drop it. -/
def settling (p : Handler Unit) : Handler Unit :=
  Program.tryCatch (p.bind fun _ => Program.attempt (perform .ack)) fun _ => dropMessage

section Work

variable {σ : Type} {exec : (op : Op) → σ → Ans op × σ} {p : Handler Unit}

theorem settlements_of_unsettled {α : Type} {p : Handler α} (hp : Unsettled p) (s : σ) :
    settlements (p.trace exec s) = [] := by
  rw [settlements, List.filter_eq_nil_iff]
  intro op hop
  obtain ⟨⟨op, t⟩, hmem, rfl⟩ := List.mem_map.mp hop
  rw [hp.mem_trace exec hmem]
  exact Bool.false_ne_true

theorem dropMessage_run (hopen : StaysOpen exec) (s : σ) :
    (dropMessage.run exec s).1 = .ok () ∧
      dropMessage.trace exec s = [(.nack false, s)] := by
  simp [dropMessage, logged, perform, Program.call, Program.attempt, hopen.nack]

theorem settling_run (hopen : StaysOpen exec) (hp : Unsettled p) (s : σ) :
    ((settling p).run exec s).1 = .ok () ∧
      settlements ((settling p).trace exec s) =
        match (p.run exec s).1 with
        | .ok () => [.ack]
        | .error _ => [.nack false] := by
  have hsilent : settlements (p.trace exec s) = [] := settlements_of_unsettled hp s
  rw [settling, Program.run_tryCatch, Program.trace_tryCatch, Program.run_bind,
    Program.trace_bind]
  obtain ⟨r, t⟩ := p.run exec s
  cases r with
  | ok u =>
    have hack : (Program.attempt (perform .ack)).run exec t = (.ok (), (exec .ack t).2) := by
      simp [perform, Program.call, Program.attempt, hopen.ack]
    have htrace : (Program.attempt (perform .ack)).trace exec t = [(.ack, t)] := by
      simp [perform, Program.call, Program.attempt, hopen.ack]
    simp only [Program.resume_ok, Program.resumeTrace_ok, hack, htrace, settlements_append, hsilent]
    exact ⟨trivial, rfl⟩
  | error e =>
    obtain ⟨hrun, htrace⟩ := dropMessage_run hopen t
    simp only [Program.resume_error, Program.resumeTrace_error, hrun, htrace, settlements_append,
      hsilent]
    exact ⟨trivial, rfl⟩

end Work

/-- What `handleMessageReceived` does before it acknowledges. -/
def notifyMessage (config : Config) (payload : Value) : Handler Unit := do
  let title ← .done (titleFrom (payload.field "fromName"))
  Program.attempt (perform (.save (messageRow payload title)))
  let online ← perform (.isUserOnline (payload.field "userId"))
  let messageTpl ← loadTemplate "message.html"
  if online && (payload.field "userToken").truthy then sendPush payload
  else if (payload.field "userEmail").truthy then sendMessageEmail config payload messageTpl
  else pure ()

theorem handleMessageReceived_eq (config : Config) (payload : Value) :
    handleMessageReceived config payload = settling (notifyMessage config payload) := by
  have hbranch : ∀ (b c : Bool) (p q : Handler Unit),
      (if b then p.bind fun _ => Program.attempt (perform .ack)
        else if c then q.bind fun _ => Program.attempt (perform .ack)
        else Program.attempt (perform .ack)) =
      (if b then p else if c then q else pure ()).bind fun _ => Program.attempt (perform .ack) := by
    intro b c p q
    cases b <;> cases c <;> rfl
  simp only [handleMessageReceived, settling, notifyMessage, Program.bind_eq, Program.bind_assoc,
    hbranch]

/-- What `handleUserRegistered` does before it acknowledges. -/
def notifyRegistration (config : Config) (payload : Value) : Handler Unit := do
  Program.attempt (perform (.save (welcomeRow payload)))
  if (payload.field "userEmail").truthy then logged (sendWelcomeEmail config payload)
  else pure ()

theorem handleUserRegistered_eq (config : Config) (payload : Value) :
    handleUserRegistered config payload = settling (notifyRegistration config payload) := by
  have hbranch : ∀ (b : Bool) (p : Handler Unit),
      (if b then p.bind fun _ => Program.attempt (perform .ack)
        else Program.attempt (perform .ack)) =
      (if b then p else pure ()).bind fun _ => Program.attempt (perform .ack) := by
    intro b p
    cases b <;> rfl
  simp only [handleUserRegistered, settling, notifyRegistration, Program.bind_eq,
    Program.bind_assoc, hbranch]

theorem logged_unsettled {p : Handler Unit} (hp : Unsettled p) : Unsettled (logged p) :=
  hp.tryCatch fun _ => trivial

theorem sendPushNotification_unsettled (token message : Value) (data : List (JsString × Value)) :
    Unsettled (sendPushNotification token message data) := by
  refine ⟨rfl, fun ready => ?_⟩
  cases ready with
  | false => trivial
  | true => exact logged_unsettled ⟨rfl, fun _ => trivial⟩

theorem sendEmail_unsettled (config : Config) (toAddress : Value) (subject html : JsString) :
    Unsettled (sendEmail config toAddress subject html) := by
  rw [sendEmail]
  split
  · trivial
  · split
    · trivial
    · exact ⟨rfl, fun _ => trivial⟩

theorem loadTemplate_unsettled (name : String) : Unsettled (loadTemplate name) :=
  Program.Issues.tryCatch ⟨rfl, fun _ => trivial⟩ fun _ => trivial

theorem sendPush_unsettled (payload : Value) : Unsettled (sendPush payload) := by
  rw [sendPush]
  split
  · trivial
  · split
    · exact sendPushNotification_unsettled _ _ _
    · exact sendPushNotification_unsettled _ _ _

theorem sendMessageEmail_unsettled (config : Config) (payload : Value) (messageTpl : JsString) :
    Unsettled (sendMessageEmail config payload messageTpl) := by
  rw [sendMessageEmail]
  split
  · trivial
  · refine Program.Issues.bind trivial fun title => ?_
    refine Program.Issues.bind ⟨rfl, fun _ => trivial⟩ fun year => ?_
    refine Program.Issues.bind trivial fun html => ?_
    exact Program.Issues.bind trivial fun subject => sendEmail_unsettled _ _ _ _

theorem notifyMessage_unsettled (config : Config) (payload : Value) :
    Unsettled (notifyMessage config payload) := by
  refine Program.Issues.bind trivial fun title => ?_
  refine Program.Issues.bind (Program.Issues.attempt ⟨rfl, fun _ => trivial⟩) fun _ => ?_
  refine Program.Issues.bind ⟨rfl, fun _ => trivial⟩ fun online => ?_
  refine Program.Issues.bind (loadTemplate_unsettled _) fun messageTpl => ?_
  split
  · exact sendPush_unsettled payload
  · split
    · exact sendMessageEmail_unsettled config payload messageTpl
    · trivial

theorem notifyRegistration_unsettled (config : Config) (payload : Value) :
    Unsettled (notifyRegistration config payload) := by
  refine Program.Issues.bind (Program.Issues.attempt ⟨rfl, fun _ => trivial⟩) fun _ => ?_
  split
  · refine logged_unsettled (Program.Issues.bind (loadTemplate_unsettled _) fun tpl => ?_)
    refine Program.Issues.bind ⟨rfl, fun _ => trivial⟩ fun year => ?_
    exact Program.Issues.bind trivial fun html => sendEmail_unsettled _ _ _ _
  · trivial

section Saving

variable {σ : Type} {exec : (op : Op) → σ → Ans op × σ}

/-- Work that begins by saving a row has saved it if it succeeds. -/
theorem saved_of_run {row : NewNotification} {rest : Unit → Handler Unit} {s : σ}
    (h : (((Program.attempt (perform (.save row))).bind rest).run exec s).1 = .ok ()) :
    Saved exec (((Program.attempt (perform (.save row))).bind rest).trace exec s) := by
  cases hsave : (exec (.save row) s).1 with
  | ok u =>
    exact ⟨row, s, by simp [perform, Program.call, Program.attempt], hsave⟩
  | error e => simp [perform, Program.call, Program.attempt, hsave] at h

theorem notifyMessage_saved {config : Config} {payload : Value} {s : σ}
    (h : ((notifyMessage config payload).run exec s).1 = .ok ()) :
    Saved exec ((notifyMessage config payload).trace exec s) := by
  cases htitle : titleFrom (payload.field "fromName") with
  | error e => simp [notifyMessage, htitle] at h
  | ok title =>
    simp only [notifyMessage, htitle, Program.bind_eq, Program.bind_ok] at h ⊢
    exact saved_of_run h

end Saving

/-- The events that are kept as notifications. -/
def IsKept (type : Value) : Prop :=
  type = .json (.str (js "MESSAGE_RECEIVED")) ∨ type = .json (.str (js "USER_REGISTERED"))

/-- What the consumer does before it hands a message on; the result is the payload. -/
def received (content : JsString) : Handler Value := do
  let payload ← .done (JSON.parse content)
  let type ← .done ((Value.json payload).destructure "payload" "type")
  Program.attempt (perform .getRepository)
  Program.attempt (perform (.countConsumed (orText type "unknown")))
  pure (.json payload)

def dispatch (config : Config) (payload : Value) : Handler Unit :=
  if payload.field "type" = .json (.str (js "MESSAGE_RECEIVED")) then
    handleMessageReceived config payload
  else if payload.field "type" = .json (.str (js "USER_REGISTERED")) then
    handleUserRegistered config payload
  else Program.attempt (perform .ack)

theorem onNotification_eq (config : Config) (content : JsString) : onNotification config content =
    Program.tryCatch ((received content).bind (dispatch config)) fun _ => dropMessage := by
  cases hparse : JSON.parse content with
  | error e => simp [onNotification, received, hparse]
  | ok payload =>
    by_cases hnull : (Value.json payload).Nullish
    · have hget := Value.destructure_of_nullish hnull "payload" "type"
      simp [onNotification, handleMessage, received, hparse, hget]
    · have hget := Value.destructure_of_not_nullish hnull "payload" "type"
      simp [onNotification, handleMessage, received, hparse, hget, Program.bind_assoc, dispatch]

theorem received_unsettled (content : JsString) : Unsettled (received content) := by
  refine Program.Issues.bind trivial fun payload => ?_
  refine Program.Issues.bind trivial fun type => ?_
  refine Program.Issues.bind (Program.Issues.attempt ⟨rfl, fun _ => trivial⟩) fun _ => ?_
  exact Program.Issues.bind (Program.Issues.attempt ⟨rfl, fun _ => trivial⟩) fun _ => trivial

section Consumer

variable {σ : Type} {exec : (op : Op) → σ → Ans op × σ}

theorem received_result {content : JsString} {s : σ} {v : Value}
    (h : ((received content).run exec s).1 = .ok v) :
    ∃ payload, JSON.parse content = .ok payload ∧ v = .json payload := by
  cases hparse : JSON.parse content with
  | error e => simp [received, hparse] at h
  | ok payload =>
    refine ⟨payload, rfl, ?_⟩
    cases hget : (Value.json payload).destructure "payload" "type" with
    | error e => simp [received, hparse, hget] at h
    | ok type =>
      cases hrepo : (exec .getRepository s).1 with
      | error e => simp [received, hparse, hget, perform, Program.call, Program.attempt, hrepo] at h
      | ok u =>
        cases hcount : (exec (.countConsumed (orText type "unknown"))
            (exec .getRepository s).2).1 with
        | error e =>
          simp [received, hparse, hget, perform, Program.call, Program.attempt, hrepo, hcount] at h
        | ok u =>
          simp [received, hparse, hget, perform, Program.call, Program.attempt, hrepo, hcount] at h
          exact h.symm

/-- The program resolves after one settlement, and does not acknowledge an event that is kept
without a row. -/
structure Settles (exec : (op : Op) → σ → Ans op × σ) (p : Handler Unit) (s : σ)
    (kept : Prop) : Prop where
  resolves : (p.run exec s).1 = .ok ()
  once : settlements (p.trace exec s) = [.ack] ∨ settlements (p.trace exec s) = [.nack false]
  saved : kept → .ack ∈ settlements (p.trace exec s) → Saved exec (p.trace exec s)

theorem settling_settles (hopen : StaysOpen exec) {p : Handler Unit} (hp : Unsettled p) {s : σ}
    (hsaved : (p.run exec s).1 = .ok () → Saved exec (p.trace exec s)) :
    Settles exec (settling p) s True := by
  obtain ⟨hrun, hsettled⟩ := settling_run hopen hp s
  refine ⟨hrun, ?_, fun _ hack => ?_⟩
  · rw [hsettled]
    cases (p.run exec s).1 with
    | ok u => exact .inl rfl
    | error e => exact .inr rfl
  · rw [hsettled] at hack
    cases hresult : (p.run exec s).1 with
    | ok u =>
      rw [settling, Program.trace_tryCatch, Program.trace_bind]
      exact ((hsaved hresult).append_right _).append_right _
    | error e => simp [hresult] at hack

theorem dispatch_settles (hopen : StaysOpen exec) (config : Config) (payload : Value) (s : σ) :
    Settles exec (dispatch config payload) s (IsKept (payload.field "type")) := by
  rw [dispatch]
  split
  · rw [handleMessageReceived_eq]
    obtain ⟨hrun, honce, hsaved⟩ := settling_settles hopen (notifyMessage_unsettled config payload)
      notifyMessage_saved (s := s)
    exact ⟨hrun, honce, fun _ => hsaved trivial⟩
  · split
    · rw [handleUserRegistered_eq]
      obtain ⟨hrun, honce, hsaved⟩ := settling_settles hopen
        (notifyRegistration_unsettled config payload) saved_of_run (s := s)
      exact ⟨hrun, honce, fun _ => hsaved trivial⟩
    · rename_i hmessage hregistered
      refine ⟨?_, .inl ?_, fun hkept => ?_⟩
      · simp [perform, Program.call, Program.attempt, hopen.ack]
      · simp [perform, Program.call, Program.attempt, hopen.ack, settlements, IsSettlement]
      · exact (hkept.elim hmessage hregistered).elim

/-- As long as the channel is open, the consumer settles every message once and its promise
resolves, whatever fails; a message of one of the two kinds is acknowledged only if its row has
been saved. -/
theorem settles_once (hopen : StaysOpen exec) (config : Config) (content : JsString) (s : σ) :
    ((onNotification config content).run exec s).1 = .ok () ∧
    (settlements ((onNotification config content).trace exec s) = [.ack] ∨
      settlements ((onNotification config content).trace exec s) = [.nack false]) ∧
    ∀ payload, JSON.parse content = .ok payload →
      IsKept ((Value.json payload).field "type") →
        .ack ∈ settlements ((onNotification config content).trace exec s) →
          Saved exec ((onNotification config content).trace exec s) := by
  have hsilent : settlements ((received content).trace exec s) = [] :=
    settlements_of_unsettled (received_unsettled content) s
  rw [onNotification_eq, Program.run_tryCatch, Program.trace_tryCatch, Program.run_bind,
    Program.trace_bind]
  have hresult : ∀ v, ((received content).run exec s).1 = .ok v →
      ∃ payload, JSON.parse content = .ok payload ∧ v = .json payload :=
    fun v => received_result
  generalize (received content).trace exec s = before at hsilent
  rcases hreceived : (received content).run exec s with ⟨r, t⟩
  rw [hreceived] at hresult
  cases r with
  | error e =>
    obtain ⟨hrun, htrace⟩ := dropMessage_run hopen t
    simp only [Program.resume_error, Program.resumeTrace_error, settlements_append, hsilent, htrace,
      hrun]
    exact ⟨trivial, .inr rfl, fun _ _ _ hack => by simp [settlements, IsSettlement] at hack⟩
  | ok v =>
    obtain ⟨payload, hparse, rfl⟩ := hresult v rfl
    obtain ⟨hrun, honce, hsaved⟩ := dispatch_settles hopen config (.json payload) t
    simp only [Program.resume_ok, Program.resumeTrace_ok]
    rcases hdispatch : (dispatch config (.json payload)).run exec t with ⟨r, u⟩
    rw [hdispatch] at hrun
    obtain rfl : r = .ok () := hrun
    simp only [settlements_append, hsilent, List.nil_append, List.append_nil]
    refine ⟨trivial, honce, fun other hother hkept hack => ?_⟩
    obtain rfl := Except.ok.inj (hparse.symm.trans hother)
    exact (hsaved hkept hack).append_left before

end Consumer

/-- A service whose database does not work, with a channel that stays open. -/
def withoutDatabase : (op : Op) → Unit → Ans op × Unit
  | .getRepository, _ | .countConsumed _, _ | .send _, _ | .sendMail _, _ => (.ok (), ())
  | .ack, _ | .nack _, _ => (.ok (), ())
  | .save _, _ => (.error (.failure "connection terminated"), ())
  | .isUserOnline _, _ | .initializeFirebase, _ => (false, ())
  | .readTemplate _, _ => (.error (.failure "no such file"), ())
  | .getFullYear, _ => (2024, ())

def someConfig : Config := ⟨js "key", js "chat@example.com", false, js "http://localhost:85"⟩

def someMessage : JsString := js "\x7b\"type\":\"MESSAGE_RECEIVED\",\"userId\":\"u1\"\x7d"

/-- Without a database a message is dropped, and not acknowledged. -/
theorem someMessage_dropped :
    settlements ((onNotification someConfig someMessage).trace withoutDatabase ()) = [.ack] ∨
      settlements ((onNotification someConfig someMessage).trace withoutDatabase ()) =
        [.nack false] :=
  (settles_once ⟨fun _ => rfl, fun _ _ => rfl⟩ someConfig someMessage ()).2.1

example : settlements ((onNotification someConfig someMessage).trace withoutDatabase ()) =
    [.nack false] := by decide +kernel

end ChatMicroservices.NotificationSettlement

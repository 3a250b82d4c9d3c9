import ChatMicroservices.NotificationSettlement

/-!
# Delivery attempts

The status of the user and the contact fields of a message choose one channel for it: a push
for a user who is online and has a token, and otherwise an e-mail to an address. The message is
handed to the transport of that channel, when it is configured, before it is settled; the other
channel is not tried.
-/

namespace ChatMicroservices.DeliveryAttempts
open JavaScriptValues JavaScriptOperators EffectPrograms EmailTemplates NotificationHandlers
  NotificationSettlement

/-- `UserStatusStore`, and the flag of `FCMService`. -/
structure Services where
  onlineUsers : List Value
  firebaseInitialized : Bool

def Services.isUserOnline (services : Services) (userId : Value) : Bool :=
  userId ∈ services.onlineUsers

/-- The credentials of Firebase, empty when they are not set, and what `initializeApp` does. -/
structure Firebase where
  googleApplicationCredentials : JsString
  initializeApp : Except JsError Unit

def ensureFirebaseInitialized (firebase : Firebase) (services : Services) : Bool × Services :=
  if services.firebaseInitialized then (true, services)
  else if firebase.googleApplicationCredentials = [] then (false, services)
  else
    match firebase.initializeApp with
    | .ok () => (true, { services with firebaseInitialized := true })
    | .error _ => (false, services)

/-- Firebase can be used. -/
def FirebaseConfigured (firebase : Firebase) (services : Services) : Prop :=
  (ensureFirebaseInitialized firebase services).1 = true

section

variable {δ : Type}

/-- The services answer for themselves, and reading a file leaves them alone. Anything may
happen to them while another effect is awaited. -/
def serve (firebase : Firebase) (readFile : JsString → δ → Except JsError JsString × δ)
    (other : (op : Op) → Services × δ → Ans op × (Services × δ)) :
    (op : Op) → Services × δ → Ans op × (Services × δ)
  | .isUserOnline userId, s => (s.1.isUserOnline userId, s)
  | .initializeFirebase, s =>
    ((ensureFirebaseInitialized firebase s.1).1, (ensureFirebaseInitialized firebase s.1).2, s.2)
  | .readTemplate name, s => ((readFile name s.2).1, s.1, (readFile name s.2).2)
  | op, s => other op s

inductive Channel where
  | push | email
  deriving DecidableEq

/-- The channel for a message. -/
def channel (services : Services) (payload : Value) : Option Channel :=
  if services.isUserOnline (payload.field "userId") && (payload.field "userToken").truthy then
    some .push
  else if (payload.field "userEmail").truthy then some .email
  else none

def Configured (config : Config) (firebase : Firebase) (services : Services) : Channel → Prop
  | .push => FirebaseConfigured firebase services
  | .email => config.emailFrom ≠ [] ∧ config.sendinblueApiKey ≠ []

/-- The effect hands a notification to the transport of the channel. -/
def Hands (config : Config) (payload : Value) : Channel → Op → Prop
  | .push, .send push => push.token = payload.field "userToken"
  | .email, .sendMail mail => mail.toAddress = payload.field "userEmail" ∧
      mail.transport = if config.smtpConfigured then .smtp else .brevo
  | _, _ => False

/-- An effect of `P` happens before any settlement. -/
def BeforeSettlement {σ : Type} (P : Op → Prop) (t : List (Op × σ)) : Prop :=
  ∃ before op s after, t = before ++ (op, s) :: after ∧ P op ∧ settlements before = []

/-- The body of the e-mail. -/
def emailBody (payload : Value) : Value :=
  if (payload.field "isEncrypted").truthy then
    .json (.str (js "You have a new encrypted message. Open the app to view it."))
  else orText (payload.field "message") ""

section Runs

variable {σ : Type} {exec : (op : Op) → σ → Ans op × σ}

theorem mem_trace_bind {α β : Type} {p : Handler α} {f : α → Handler β} {s t : σ} {a : α}
    (hp : p.run exec s = (.ok a, t)) {effect : Op × σ} (h : effect ∈ (f a).trace exec t) :
    effect ∈ (p.bind f).trace exec s := by
  rw [Program.trace_bind, hp, Program.resumeTrace_ok]
  exact List.mem_append_right _ h

theorem beforeSettlement_of_mem {p : Handler Unit} (hp : Unsettled p) {P : Op → Prop} {s t : σ}
    {op : Op} (hmem : (op, t) ∈ p.trace exec s) (hop : P op) :
    BeforeSettlement P ((settling p).trace exec s) := by
  have hsilent : settlements (p.trace exec s) = [] := settlements_of_unsettled hp s
  obtain ⟨before, after, htrace⟩ := List.append_of_mem hmem
  rw [htrace, settlements_append, List.append_eq_nil_iff] at hsilent
  have hsettling : ∃ rest, (settling p).trace exec s = p.trace exec s ++ rest := by
    rw [settling, Program.trace_tryCatch, Program.trace_bind, List.append_assoc]
    exact ⟨_, rfl⟩
  obtain ⟨rest, hrest⟩ := hsettling
  rw [hrest, htrace, List.append_assoc, List.cons_append]
  exact ⟨before, op, t, after ++ rest, rfl, hop, hsilent.1⟩

variable (exec) in
theorem loadTemplate_run (name : String) (s : σ) : ∃ tpl,
    (loadTemplate name).run exec s = (.ok tpl, (exec (.readTemplate (js name)) s).2) := by
  simp only [loadTemplate, perform, Program.call, Program.attempt, Program.bind_perform,
    Program.bind_ok, Program.tryCatch_perform, Program.run_perform]
  cases (exec (.readTemplate (js name)) s).1 with
  | ok text => exact ⟨text, rfl⟩
  | error e => exact ⟨[], rfl⟩

end Runs

theorem mem_of_lookup {key : JsString} {v : Json} {vars : Vars} (h : lookup key vars = some v) :
    (key, v) ∈ vars := by
  induction vars with
  | nil => cases h
  | cons entry vars ih =>
    rw [lookup] at h
    split at h
    next hkey =>
      cases h
      exact hkey ▸ List.mem_cons_self
    next => exact List.mem_cons_of_mem _ (ih h)

/-- The variables can be converted to texts. -/
def Convertible (vars : Vars) : Prop := ∀ entry ∈ vars, ∃ text, toText entry.2 = .ok text

theorem inserted_ok {vars : Vars} (hvars : Convertible vars) (key : JsString) :
    ∃ text, inserted vars key = .ok text := by
  unfold inserted
  split
  next => exact ⟨_, rfl⟩
  next => exact ⟨[], rfl⟩
  next v _ hlookup => exact hvars _ (mem_of_lookup hlookup)

theorem replace_ok {vars : Vars} (hvars : Convertible vars) (fuel : ℕ) (text : JsString) :
    ∃ rendered, replace vars fuel text = .ok rendered := by
  induction fuel generalizing text with
  | zero => exact ⟨[], rfl⟩
  | succ fuel ih =>
    cases text with
    | nil => exact ⟨[], rfl⟩
    | cons u text =>
      cases hplaceholder : placeholder (u :: text) with
      | none =>
        obtain ⟨rendered, hrendered⟩ := ih text
        refine ⟨u :: rendered, ?_⟩
        simp only [replace, hplaceholder, hrendered]
        rfl
      | some found =>
        obtain ⟨value, hvalue⟩ := inserted_ok hvars found.1
        obtain ⟨rendered, hrendered⟩ := ih found.2
        refine ⟨value ++ rendered, ?_⟩
        simp only [replace, hplaceholder, hvalue, hrendered]
        rfl

theorem convertible_commonVars (config : Config) (year : ℕ) :
    Convertible (commonVars config year) := by
  simp [Convertible, commonVars, toText]

section Handler

variable {config : Config} {payload : Value} {σ : Type} {exec : (op : Op) → σ → Ans op × σ}

/-- An effect of the run hands the notification to the channel. -/
def HandsOver (config : Config) (payload : Value) (chosen : Channel) (t : List (Op × σ)) : Prop :=
  ∃ op u, (op, u) ∈ t ∧ Hands config payload chosen op

theorem HandsOver.bind {α β : Type} {p : Handler α} {f : α → Handler β} {s t : σ} {a : α}
    {chosen : Channel} (hp : p.run exec s = (.ok a, t))
    (h : HandsOver config payload chosen ((f a).trace exec t)) :
    HandsOver config payload chosen ((p.bind f).trace exec s) := by
  obtain ⟨op, u, hmem, hop⟩ := h
  exact ⟨op, u, mem_trace_bind hp hmem, hop⟩

theorem sendPushNotification_handsOver {s : σ} {message : Value} {data : List (JsString × Value)}
    (hready : (exec .initializeFirebase s).1 = true) :
    HandsOver config payload .push
      ((sendPushNotification (payload.field "userToken") message data).trace exec s) := by
  refine ⟨.send ⟨js "New Message", message, payload.field "userToken", data⟩,
    (exec .initializeFirebase s).2, ?_, rfl⟩
  rw [sendPushNotification, perform, Program.bind_eq, Program.bind_call, Program.trace_perform,
    hready, if_pos rfl]
  exact List.mem_cons_of_mem _ List.mem_cons_self

theorem sendPush_handsOver {s : σ} (htoken : (payload.field "userToken").truthy = true)
    (hready : (exec .initializeFirebase s).1 = true) :
    HandsOver config payload .push ((sendPush payload).trace exec s) := by
  rw [sendPush, if_neg (not_not_intro htoken)]
  split
  · exact sendPushNotification_handsOver hready
  · exact sendPushNotification_handsOver hready

theorem sendEmail_handsOver {s : σ} {subject html : JsString} (hfrom : config.emailFrom ≠ [])
    (hkey : config.sendinblueApiKey ≠ []) :
    HandsOver config payload .email
      ((sendEmail config (payload.field "userEmail") subject html).trace exec s) := by
  rw [sendEmail, if_neg hkey, if_neg hfrom]
  exact ⟨_, s, List.mem_cons_self, rfl, rfl⟩

theorem sendMessageEmail_handsOver {s : σ} {tpl title body : JsString}
    (hemail : (payload.field "userEmail").truthy = true) (hfrom : config.emailFrom ≠ [])
    (hkey : config.sendinblueApiKey ≠ [])
    (htitle : titleFrom (payload.field "fromName") = .ok title)
    (hbody : toText (emailBody payload).column = .ok body) :
    HandsOver config payload .email ((sendMessageEmail config payload tpl).trace exec s) := by
  rw [sendMessageEmail, if_neg (not_not_intro hemail), htitle]
  refine HandsOver.bind (t := (exec .getFullYear s).2) (a := (exec .getFullYear s).1) rfl ?_
  have hvars : Convertible ((js "TITLE", .str title) :: (js "BODY", (emailBody payload).column) ::
      commonVars config (exec .getFullYear s).1) := by
    intro entry hentry
    rcases List.mem_cons.mp hentry with rfl | hentry
    · exact ⟨title, rfl⟩
    · rcases List.mem_cons.mp hentry with rfl | hentry
      · exact ⟨body, hbody⟩
      · exact convertible_commonVars config _ entry hentry
  obtain ⟨html, hhtml⟩ := replace_ok hvars tpl.length tpl
  rw [emailBody] at hhtml
  rw [renderTemplate, hhtml]
  exact sendEmail_handsOver hfrom hkey

end Handler

section Channels

variable {firebase : Firebase} {readFile : JsString → δ → Except JsError JsString × δ}
  {other : (op : Op) → Services × δ → Ans op × (Services × δ)} {config : Config}
  {payload : Value}

/-- Once its row is saved, a message goes to the channel that is chosen for it. -/
theorem notifyMessage_handsOver {s : Services × δ} {title : JsString} {services : Services}
    {d : δ} {chosen : Channel} (htitle : titleFrom (payload.field "fromName") = .ok title)
    (hsaved : other (.save (messageRow payload title)) s = (.ok (), services, d))
    (hchosen : channel services payload = some chosen)
    (hconfigured : Configured config firebase services chosen)
    (hbody : chosen = .email → ∃ body, toText (emailBody payload).column = .ok body) :
    HandsOver config payload chosen
      ((notifyMessage config payload).trace (serve firebase readFile other) s) := by
  simp only [notifyMessage, htitle, Program.bind_eq, Program.bind_ok]
  have hsave : (Program.attempt (perform (.save (messageRow payload title)))).run
      (serve firebase readFile other) s = (.ok (), services, d) := by
    simp only [perform, Program.call, Program.attempt, Program.bind_perform, Program.bind_ok,
      Program.run_perform, serve, hsaved, Program.run_done]
  refine HandsOver.bind hsave ?_
  refine HandsOver.bind (t := (services, d))
    (a := services.isUserOnline (payload.field "userId")) rfl ?_
  obtain ⟨tpl, htpl⟩ :=
    loadTemplate_run (serve firebase readFile other) "message.html" (services, d)
  refine HandsOver.bind htpl ?_
  unfold channel at hchosen
  split at hchosen
  next honline =>
    cases hchosen
    rw [if_pos honline]
    exact sendPush_handsOver (Bool.and_eq_true_iff.mp honline).2 hconfigured
  next honline =>
    rw [if_neg honline]
    split at hchosen
    next hemail =>
      cases hchosen
      obtain ⟨body, hbody⟩ := hbody rfl
      rw [if_pos hemail]
      exact sendMessageEmail_handsOver hemail hconfigured.1 hconfigured.2 htitle hbody
    next => cases hchosen

/-- When the channel for a message is configured, the message is handed to its transport before
it is settled. -/
theorem chosen_channel_attempted {s : Services × δ} {title : JsString} {services : Services}
    {d : δ} {chosen : Channel} (htitle : titleFrom (payload.field "fromName") = .ok title)
    (hsaved : other (.save (messageRow payload title)) s = (.ok (), services, d))
    (hchosen : channel services payload = some chosen)
    (hconfigured : Configured config firebase services chosen)
    (hbody : chosen = .email → ∃ body, toText (emailBody payload).column = .ok body) :
    BeforeSettlement (Hands config payload chosen)
      ((handleMessageReceived config payload).trace (serve firebase readFile other) s) := by
  have hhands : HandsOver config payload chosen
      ((notifyMessage config payload).trace (serve firebase readFile other) s) :=
    notifyMessage_handsOver htitle hsaved hchosen hconfigured hbody
  obtain ⟨op, u, hmem, hop⟩ := hhands
  rw [handleMessageReceived_eq]
  exact beforeSettlement_of_mem (notifyMessage_unsettled config payload) hmem hop

end Channels

end

/-- A database and transports that work. -/
def working : (op : Op) → Services × Unit → Ans op × (Services × Unit)
  | .getRepository, s | .countConsumed _, s | .save _, s | .send _, s => (.ok (), s)
  | .sendMail _, s | .ack, s | .nack _, s => (.ok (), s)
  | .isUserOnline _, s | .initializeFirebase, s => (false, s)
  | .readTemplate _, s => (.ok [], s)
  | .getFullYear, s => (2024, s)

def noFile (_ : JsString) (d : Unit) : Except JsError JsString × Unit :=
  (.error (.failure "no such file"), d)

def credentials : Firebase := ⟨js "/run/secrets/firebase.json", .ok ()⟩

/-- A message for a user with a token. -/
def pushMessage : Value := .json (.obj [(js "userId", .str (js "u1")),
  (js "userToken", .str (js "token")), (js "message", .str (js "Hello"))])

/-- A message for a user with an address. -/
def mailMessage : Value := .json (.obj [(js "userId", .str (js "u1")),
  (js "userEmail", .str (js "u1@example.com")), (js "message", .str (js "Hello"))])

/-- A user who is online gets a push, and one who is offline an e-mail. -/
theorem someMessages_attempted :
    BeforeSettlement (Hands someConfig pushMessage .push)
      ((handleMessageReceived someConfig pushMessage).trace (serve credentials noFile working)
        (⟨[.json (.str (js "u1"))], false⟩, ())) ∧
    BeforeSettlement (Hands someConfig mailMessage .email)
      ((handleMessageReceived someConfig mailMessage).trace (serve credentials noFile working)
        (⟨[], false⟩, ())) := by
  have htitle : titleFrom (.undefined) = .ok (js "New message from Unknown") := rfl
  exact ⟨chosen_channel_attempted htitle rfl (by decide) rfl (fun h => by cases h),
    chosen_channel_attempted htitle rfl (by decide) ⟨by decide, by decide⟩
      fun _ => ⟨js "Hello", rfl⟩⟩

/-- The effect hands a notification to any transport. -/
def IsAttempt : Op → Bool
  | .send _ | .sendMail _ => true
  | _ => false

/-- A message for a user who is offline is acknowledged without an attempt when it has only a
token, although Firebase is configured and everything works. -/
theorem offline_push_not_attempted :
    (pushMessage.field "userToken").truthy = true ∧
    FirebaseConfigured credentials ⟨[], false⟩ ∧
    ¬ BeforeSettlement (fun op => IsAttempt op)
      ((handleMessageReceived someConfig pushMessage).trace (serve credentials noFile working)
        (⟨[], false⟩, ())) := by
  refine ⟨by decide, rfl, ?_⟩
  rintro ⟨before, op, s, after, htrace, hop, -⟩
  have hnone : ∀ op ∈ ((handleMessageReceived someConfig pushMessage).trace
      (serve credentials noFile working) (⟨[], false⟩, ())).map Prod.fst,
        IsAttempt op = false := by
    decide +kernel
  rw [htrace] at hnone
  rw [hnone op (by simp)] at hop
  cases hop

end ChatMicroservices.DeliveryAttempts

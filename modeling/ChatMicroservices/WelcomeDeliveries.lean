import ChatMicroservices.DeliveryAttempts
import ChatMicroservices.EffectCounts
import ChatMicroservices.NotificationPrivacy
import ChatMicroservices.RegistrationEvents

/-!
# Welcoming registered users

A registration publishes an event for the notification service, which keeps a notification for
the user and sends an e-mail. Any number of registrations race with each other and with the
consumer of the events; the broker hands every event that it accepts to the consumer once.
-/

namespace ChatMicroservices.WelcomeDeliveries
open JavaScriptValues EffectPrograms ConcurrentPrograms EmailTemplates NotificationHandlers
  NotificationSettlement
open AuthController (CaseMapping EventPayload HttpResult UserData registeredEvent usernameRegex)
open UsersTable (Table)
open AuthValidation (EmailRules ValidBody)
open RegistrationRaces (Conditions Libraries asciiMapping calm plainText requests)
open RegistrationEvents (Announces World addresses announced_run exec leaves_run mem_publishedBy
  published_step start)
open JSON (carried)
open NotificationPrivacy (member)
open DeliveryAttempts (Convertible convertible_commonVars loadTemplate_run mem_trace_bind
  replace_ok)

/-- `JSON.stringify(payload)` -/
def eventText (payload : EventPayload) : JsString :=
  JSON.stringify (.obj ([(js "type", .str (js payload.type)), (js "userId", .str payload.userId)] ++
    member "userEmail" payload.userEmail ++
    [(js "fromName", .str (js payload.fromName)), (js "message", .str (js payload.message))]))

/-- An event as the notification service reads it. -/
structure Reads (payload : EventPayload) (event : Value) : Prop where
  type : event.field "type" = .json (.str (js payload.type))
  userId : event.field "userId" = .json (.str payload.userId)
  userEmail : event.field "userEmail" = carried payload.userEmail
  message : event.field "message" = .json (.str (js payload.message))

theorem eventText_parses (payload : EventPayload) :
    ∃ event, JSON.parse (eventText payload) = .ok event ∧ Reads payload (.json event) := by
  obtain ⟨type, userId, userEmail, fromName, message⟩ := payload
  have hstr : ∀ s, JSON.Reads (JSON.stringify (.str s)) (.str s) := JSON.reads_quote
  cases userEmail with
  | json v =>
    obtain ⟨w, hw⟩ := JSON.stringify_reads v
    have hmembers : JSON.ReadsMembers
        ([(js "type", .str (js type)), (js "userId", .str userId)] ++
          member "userEmail" (.json v) ++
          [(js "fromName", .str (js fromName)), (js "message", .str (js message))])
        [(js "type", .str (js type)), (js "userId", .str userId), (js "userEmail", w),
          (js "fromName", .str (js fromName)), (js "message", .str (js message))] :=
      .cons ⟨rfl, hstr _⟩ (.cons ⟨rfl, hstr _⟩ (.cons ⟨rfl, hw⟩ (.cons ⟨rfl, hstr _⟩
        (.cons ⟨rfl, hstr _⟩ .nil))))
    refine ⟨_, (JSON.reads_object hmembers).parse, ⟨rfl, rfl, ?_, rfl⟩⟩
    rw [carried, hw.parse]
    rfl
  | undefined | function =>
    have hmembers : JSON.ReadsMembers
        [(js "type", .str (js type)), (js "userId", .str userId),
          (js "fromName", .str (js fromName)), (js "message", .str (js message))]
        [(js "type", .str (js type)), (js "userId", .str userId),
          (js "fromName", .str (js fromName)), (js "message", .str (js message))] :=
      .cons ⟨rfl, hstr _⟩ (.cons ⟨rfl, hstr _⟩ (.cons ⟨rfl, hstr _⟩ (.cons ⟨rfl, hstr _⟩ .nil)))
    exact ⟨_, (JSON.reads_object hmembers).parse, ⟨rfl, rfl, rfl, rfl⟩⟩

/-- The answers of the services that the consumer uses, in the order of its effects. -/
abbrev Services : Type := ℕ → (op : Op) → Ans op

def answering (services : Services) (op : Op) (n : ℕ) :
    Ans op × ℕ :=
  (services n op, n + 1)

/-- The effects of the consumer for one message. -/
def deliver (config : Config) (services : Services) (content : JsString) :
    List Op :=
  ((onNotification config content).trace (answering services) 0).map Prod.fst

def savedRow : Op → Option NewNotification
  | .save row => some row
  | _ => none

def sentMail : Op → Option Mail
  | .sendMail mail => some mail
  | _ => none

/-- The notification that welcomes a user. -/
def welcomeRowOf (userId : JsString) : NewNotification where
  userId := .json (.str userId)
  type := .system
  title := js "Welcome to Chat App"
  message := .json (.str (js "Welcome to the Chat App!"))
  read := false

/-- What an effect of the consumer may be, when it welcomes a user. -/
def Welcomes (userId : JsString) (address : Value) : Op → Prop
  | .save row => row = welcomeRowOf userId
  | .sendMail mail =>
    address.truthy = true ∧ mail.toAddress = address ∧
      mail.subject = js "Welcome to Chat App"
  | .send _ => False
  | _ => True

/-- A database that works when the consumer needs it. -/
structure Working (services : Services) : Prop where
  getRepository : ∀ n, services n .getRepository = .ok ()
  countConsumed : ∀ n type, services n (.countConsumed type) = .ok ()
  save : ∀ n row, services n (.save row) = .ok ()

/-- The consumer of an event of a known type, around the work of its handler. -/
def consuming (type : Value) (work : Handler Unit) : Handler Unit :=
  Program.tryCatch (do
    Program.attempt (perform .getRepository)
    Program.attempt (perform (.countConsumed type))
    settling work) fun _ => dropMessage

section Consuming

variable {type : Value} {work : Handler Unit}

theorem consuming_issues {P : Op → Prop} (hrepository : P .getRepository)
    (hcount : ∀ type, P (.countConsumed type)) (hack : P .ack) (hnack : P (.nack false))
    (hwork : work.Issues P) : (consuming type work).Issues P := by
  have hdrop : dropMessage.Issues P :=
    Program.Issues.tryCatch (Program.Issues.attempt ⟨hnack, fun _ => trivial⟩) fun _ => trivial
  refine Program.Issues.tryCatch ?_ fun _ => hdrop
  refine Program.Issues.bind (Program.Issues.attempt ⟨hrepository, fun _ => trivial⟩) fun _ => ?_
  refine Program.Issues.bind (Program.Issues.attempt ⟨hcount _, fun _ => trivial⟩) fun _ => ?_
  refine Program.Issues.tryCatch (Program.Issues.bind hwork fun _ => ?_) fun _ => hdrop
  exact Program.Issues.attempt ⟨hack, fun _ => trivial⟩

/-- Apart from the row and the e-mail nothing is counted. -/
theorem consuming_atMost {P : Op → Bool} {n : ℕ}
    (hP : ∀ op, savedRow op = none → sentMail op = none → P op = false)
    (hwork : work.AtMost P n) : (consuming type work).AtMost P n := by
  have hcall : ∀ {op : Op}, P op = false → (perform op).AtMost P 0 := fun hop =>
    Program.atMost_of_issues ⟨hop, fun _ => trivial⟩
  have hdrop : dropMessage.AtMost P 0 :=
    (hcall (hP _ rfl rfl)).attempt.tryCatch (n := 0) fun _ => trivial
  refine Program.AtMost.tryCatch (m := n) (n := 0) ?_ fun _ => hdrop
  refine ((hcall (hP _ rfl rfl)).attempt.bind (n := n) fun _ => ?_).mono (by omega)
  refine ((hcall (hP _ rfl rfl)).attempt.bind (n := n) fun _ => ?_).mono (by omega)
  refine (hwork.bind (n := 0) fun _ => ?_).tryCatch (n := 0) fun _ => hdrop
  exact (hcall (hP _ rfl rfl)).attempt

/-- What a working consumer does once it has counted the event. -/
theorem mem_consuming {services : Services} (hworking : Working services) {op : Op} {n : ℕ}
    (hop : (op, n) ∈ work.trace (answering services) 2) :
    (op, n) ∈ (consuming type work).trace (answering services) 0 := by
  have hrepository : (Program.attempt (perform .getRepository)).run
      (answering services) 0 = (.ok (), 1) := by
    simp [Program.attempt, perform, answering, hworking.getRepository]
  have hcounted : ∀ type, (Program.attempt (perform
      (.countConsumed type))).run (answering services) 1 = (.ok (), 2) := by
    intro type
    simp [Program.attempt, perform, answering, hworking.countConsumed]
  apply Program.mem_trace_tryCatch
  apply mem_trace_bind hrepository
  apply mem_trace_bind (hcounted _)
  apply Program.mem_trace_tryCatch
  exact Program.mem_trace_bind_left _ hop

end Consuming

section Consumer

variable {config : Config} {user : UserData} {event : Json} {content : JsString}

theorem onNotification_registered (h : Reads (registeredEvent user) (.json event))
    (hparse : JSON.parse content = .ok event) :
    onNotification config content = consuming (.json (.str (js "USER_REGISTERED")))
      (notifyRegistration config (.json event)) := by
  have htype : (Value.json event).field "type" = .json (.str (js "USER_REGISTERED")) := h.type
  have hget : (Value.json event).destructure "payload" "type" =
      .ok (.json (.str (js "USER_REGISTERED"))) := by
    rw [Value.destructure_of_not_nullish, htype]
    intro hnullish
    rw [Value.field_of_nullish hnullish] at htype
    cases htype
  have hother : Value.json (.str (js "USER_REGISTERED")) ≠
      .json (.str (js "MESSAGE_RECEIVED")) := by decide
  simp only [onNotification, hparse, handleMessage, Program.bind_eq, Program.bind_ok, hget,
    if_neg hother, if_true, handleUserRegistered_eq]
  rfl

theorem welcomeMessage_eq (h : Reads (registeredEvent user) (.json event)) :
    welcomeMessage (.json event) = .json (.str (js "Welcome to the Chat App!")) := by
  have htruthy : (Value.json (.str (js "Welcome to the Chat App!"))).truthy = true := by decide
  rw [welcomeMessage, h.message]
  exact if_pos htruthy

theorem welcomeRow_eq (h : Reads (registeredEvent user) (.json event)) :
    welcomeRow (.json event) = welcomeRowOf user.id := by
  rw [welcomeRow, welcomeMessage_eq h, h.userId]
  rfl

theorem loadTemplate_issues (name : String) {P : Op → Prop}
    (hP : ∀ name, P (.readTemplate name)) : (loadTemplate name).Issues P := by
  refine Program.Issues.tryCatch (Program.Issues.attempt ?_) fun _ => trivial
  exact ⟨hP _, fun _ => trivial⟩

theorem sendEmail_issues {P : Op → Prop} (toAddress : Value)
    (subject html : JsString)
    (hP : ∀ mail : Mail, mail.toAddress = toAddress → mail.subject = subject → P (.sendMail mail)) :
    (sendEmail config toAddress subject html).Issues P := by
  unfold sendEmail
  split
  · trivial
  · split
    · trivial
    · exact Program.Issues.attempt ⟨hP _ rfl rfl, fun _ => trivial⟩

theorem sendWelcomeEmail_issues {P : Op → Prop}
    (hread : ∀ name, P (.readTemplate name)) (hyear : P .getFullYear)
    (hmail : ∀ mail : Mail, mail.toAddress = (Value.json event).field "userEmail" →
      mail.subject = js "Welcome to Chat App" → P (.sendMail mail)) :
    (sendWelcomeEmail config (.json event)).Issues P := by
  refine Program.Issues.bind (loadTemplate_issues _ hread) fun tpl => ?_
  refine Program.Issues.bind ⟨hyear, fun _ => trivial⟩ fun year => ?_
  refine Program.Issues.bind trivial fun html => ?_
  exact sendEmail_issues _ _ _ hmail

/-- Only the address and the row of the event's user occur in what is done for it. -/
theorem onNotification_welcomes (h : Reads (registeredEvent user) (.json event))
    (hparse : JSON.parse content = .ok event) :
    (onNotification config content).Issues
      (Welcomes user.id (carried user.email)) := by
  have hmail : (carried user.email).truthy = true → (sendWelcomeEmail config (.json event)).Issues
      (Welcomes user.id (carried user.email)) := fun haddress =>
    sendWelcomeEmail_issues (fun _ => trivial) trivial fun mail hto hsubject =>
      ⟨haddress, hto.trans h.userEmail, hsubject⟩
  rw [onNotification_registered h hparse]
  refine consuming_issues trivial (fun _ => trivial) trivial trivial ?_
  refine Program.Issues.bind (Program.Issues.attempt ⟨welcomeRow_eq h, fun _ => trivial⟩)
    fun _ => ?_
  split
  next htruthy =>
    have haddress : (carried user.email).truthy = true := h.userEmail ▸ htruthy
    exact Program.Issues.tryCatch (hmail haddress) fun _ => trivial
  next => trivial

section Counts

variable {P : Op → Bool} {m n : ℕ}

theorem sendEmail_atMost (toAddress : Value) (subject html : JsString) :
    (sendEmail config toAddress subject html).AtMost P 1 := by
  unfold sendEmail
  split
  · trivial
  · split
    · trivial
    · exact (Program.atMost_call _).attempt

theorem sendWelcomeEmail_atMost (hread : ∀ name, P (.readTemplate name) = false)
    (hyear : P .getFullYear = false) : (sendWelcomeEmail config (.json event)).AtMost P 1 := by
  have htemplate : (loadTemplate "welcome.html").AtMost P 0 :=
    Program.atMost_of_issues (loadTemplate_issues _ hread)
  have hnow : (perform .getFullYear).AtMost P 0 :=
    Program.atMost_of_issues ⟨hyear, fun _ => trivial⟩
  refine (htemplate.bind (n := 1) fun tpl => ?_).mono (Nat.le_refl 1)
  refine (hnow.bind (n := 1) fun year => ?_).mono (Nat.le_refl 1)
  exact (Program.AtMost.bind (m := 0) (n := 1) (Program.atMost_done _) fun html =>
    sendEmail_atMost _ _ _).mono (Nat.le_refl 1)

theorem onNotification_atMost (h : Reads (registeredEvent user) (.json event))
    (hparse : JSON.parse content = .ok event)
    (hP : ∀ op, savedRow op = none → sentMail op = none → P op = false)
    (hsave : ∀ row, (perform (.save row)).AtMost P m)
    (hmail : (sendWelcomeEmail config (.json event)).AtMost P n) :
    (onNotification config content).AtMost P (m + n) := by
  rw [onNotification_registered h hparse]
  refine consuming_atMost hP ((hsave _).attempt.bind fun _ => ?_)
  split
  · exact hmail.tryCatch (n := 0) fun _ => trivial
  · trivial

end Counts

section Deliveries

/-- As many effects of a kind as a delivery may have. -/
theorem length_filterMap_deliver {β : Type} {services : Services} {n : ℕ}
    (f : Op → Option β)
    (h : (onNotification config content).AtMost (fun op => (f op).isSome) n) :
    ((deliver config services content).filterMap f).length ≤ n := by
  rw [deliver, List.length_filterMap_eq_countP, List.countP_map]
  exact h.countP_trace _ _

variable (config) in
theorem length_savedRows_le (user : UserData) (services : Services) :
    ((deliver config services (eventText (registeredEvent user))).filterMap savedRow).length ≤
      1 := by
  obtain ⟨event, hparse, h⟩ := eventText_parses (registeredEvent user)
  generalize eventText (registeredEvent user) = content at hparse ⊢
  have hmail : (sendWelcomeEmail config (.json event)).AtMost (fun op => (savedRow op).isSome) 0 :=
    Program.atMost_of_issues (sendWelcomeEmail_issues (fun _ => rfl) rfl fun _ _ _ => rfl)
  have hone : (onNotification config content).AtMost
      (fun op => (savedRow op).isSome) (1 + 0) := by
    refine onNotification_atMost h hparse (fun op hrow _ => ?_) (fun row => ?_) hmail
    · rw [hrow]
      rfl
    · exact Program.atMost_call _
  exact length_filterMap_deliver savedRow hone

variable (config) in
theorem length_sentMails_le (user : UserData) (services : Services) :
    ((deliver config services (eventText (registeredEvent user))).filterMap sentMail).length ≤
      1 := by
  obtain ⟨event, hparse, h⟩ := eventText_parses (registeredEvent user)
  generalize eventText (registeredEvent user) = content at hparse ⊢
  have hmail : (sendWelcomeEmail config (.json event)).AtMost (fun op => (sentMail op).isSome) 1 :=
    sendWelcomeEmail_atMost (fun _ => rfl) rfl
  have hone : (onNotification config content).AtMost
      (fun op => (sentMail op).isSome) (0 + 1) := by
    refine onNotification_atMost h hparse (fun op _ hnone => ?_) (fun row => ?_) hmail
    · rw [hnone]
      rfl
    · exact Program.atMost_of_issues ⟨rfl, fun _ => trivial⟩
  exact length_filterMap_deliver sentMail hone

theorem deliver_welcomes {user : UserData} {services : Services} {op : Op}
    (hop : op ∈ deliver config services (eventText (registeredEvent user))) :
    Welcomes user.id (carried user.email) op := by
  obtain ⟨event, hparse, h⟩ := eventText_parses (registeredEvent user)
  obtain ⟨effect, heffect, rfl⟩ := List.mem_map.mp hop
  exact (onNotification_welcomes h hparse).mem_trace _ heffect

theorem mem_deliver (h : Reads (registeredEvent user) (.json event))
    (hparse : JSON.parse content = .ok event) {services : Services} (hworking : Working services)
    {op : Op} {n : ℕ}
    (hop : (op, n) ∈ (notifyRegistration config (.json event)).trace (answering services) 2) :
    op ∈ deliver config services content := by
  refine List.mem_map.mpr ⟨(op, n), ?_, rfl⟩
  rw [onNotification_registered h hparse]
  exact mem_consuming hworking hop

variable (config) in
theorem save_mem_deliver (user : UserData) {services : Services} (hworking : Working services) :
    .save (welcomeRowOf user.id) ∈ deliver config services (eventText (registeredEvent user)) := by
  obtain ⟨event, hparse, h⟩ := eventText_parses (registeredEvent user)
  generalize eventText (registeredEvent user) = content at hparse ⊢
  refine mem_deliver (n := 2) h hparse hworking ?_
  rw [← welcomeRow_eq h]
  exact List.mem_cons_self

theorem sendMail_mem_deliver {user : UserData} {services : Services} (hworking : Working services)
    (hemail : (carried user.email).truthy = true) (hfrom : config.emailFrom ≠ [])
    (hkey : config.sendinblueApiKey ≠ []) :
    ∃ mail, .sendMail mail ∈ deliver config services (eventText (registeredEvent user)) := by
  obtain ⟨event, hparse, h⟩ := eventText_parses (registeredEvent user)
  generalize eventText (registeredEvent user) = content at hparse ⊢
  have hsave : (Program.attempt (perform
      (.save (welcomeRow (.json event))))).run (answering services) 2 = (.ok (), 3) := by
    simp [Program.attempt, perform, answering, hworking.save]
  have haddress : (Value.json event).field "userEmail" = carried user.email := h.userEmail
  obtain ⟨tpl, htpl⟩ := loadTemplate_run (answering services) "welcome.html" 3
  have hyear : (perform .getFullYear).run (answering services) 4 =
      (.ok (services 4 .getFullYear), 5) := rfl
  have hvars : Convertible ((js "BODY", (welcomeMessage (.json event)).column) ::
      commonVars config (services 4 .getFullYear)) := by
    intro entry hentry
    rcases List.mem_cons.mp hentry with rfl | hentry
    · rw [welcomeMessage_eq h]
      exact ⟨js "Welcome to the Chat App!", rfl⟩
    · exact convertible_commonVars config _ entry hentry
  obtain ⟨html, hhtml⟩ := replace_ok hvars tpl.length tpl
  have hsend : ∃ mail, (Op.sendMail mail, 5) ∈ (sendEmail config
      ((Value.json event).field "userEmail") (js "Welcome to Chat App") html).trace
        (answering services) 5 := by
    rw [sendEmail, if_neg hkey, if_neg hfrom]
    exact ⟨_, List.mem_cons_self⟩
  obtain ⟨mail, hmail⟩ := hsend
  refine ⟨mail, mem_deliver (n := 5) h hparse hworking ?_⟩
  apply mem_trace_bind hsave
  rw [haddress, if_pos hemail]
  apply Program.mem_trace_tryCatch
  apply mem_trace_bind htpl
  apply mem_trace_bind hyear
  rw [renderTemplate, hhtml]
  exact hmail

end Deliveries

/-- The delivery welcomes the user at the address, once at most, and sends no e-mail where there
is no address. -/
structure WelcomesOnce (userId : JsString) (address : Value) (ops : List Op) : Prop where
  rows : ops.filterMap savedRow = [] ∨ ops.filterMap savedRow = [welcomeRowOf userId]
  mails : (ops.filterMap sentMail).length ≤ 1
  addressed : ∀ mail ∈ ops.filterMap sentMail,
    address.truthy = true ∧ mail.toAddress = address ∧
      mail.subject = js "Welcome to Chat App"
  pushes : ∀ push, .send push ∉ ops

theorem eq_nil_or_singleton {α : Type} {xs : List α} {x : α} (hlength : xs.length ≤ 1)
    (hxs : ∀ y ∈ xs, y = x) : xs = [] ∨ xs = [x] := by
  match xs, hlength with
  | [], _ => exact .inl rfl
  | [y], _ => exact .inr (congrArg (fun z => [z]) (hxs y List.mem_cons_self))

theorem mem_savedRows {ops : List Op} {row : NewNotification} :
    row ∈ ops.filterMap savedRow ↔ .save row ∈ ops := by
  rw [List.mem_filterMap]
  constructor
  · rintro ⟨op, hop, hrow⟩
    cases op <;> simp_all [savedRow]
  · exact fun h => ⟨_, h, rfl⟩

theorem mem_sentMails {ops : List Op} {mail : Mail} :
    mail ∈ ops.filterMap sentMail ↔ .sendMail mail ∈ ops := by
  rw [List.mem_filterMap]
  constructor
  · rintro ⟨op, hop, hmail⟩
    cases op <;> simp_all [sentMail]
  · exact fun h => ⟨_, h, rfl⟩

variable (config) in
theorem deliver_welcomesOnce (user : UserData) (services : Services) :
    WelcomesOnce user.id (carried user.email)
      (deliver config services (eventText (registeredEvent user))) := by
  have hop : ∀ op ∈ deliver config services (eventText (registeredEvent user)),
      Welcomes user.id (carried user.email) op := fun op => deliver_welcomes
  refine ⟨?_, length_sentMails_le config user services, fun mail hmail => ?_, fun push hpush => ?_⟩
  · exact eq_nil_or_singleton (length_savedRows_le config user services) fun row hrow =>
      hop _ (mem_savedRows.mp hrow)
  · exact hop _ (mem_sentMails.mp hmail)
  · exact hop _ hpush

variable (config) in
/-- A working consumer welcomes the user, by e-mail too if it can send one. -/
theorem deliver_complete (user : UserData) {services : Services} (hworking : Working services) :
    (deliver config services (eventText (registeredEvent user))).filterMap savedRow =
        [welcomeRowOf user.id] ∧
      ((carried user.email).truthy = true → config.emailFrom ≠ [] → config.sendinblueApiKey ≠ [] →
        ((deliver config services (eventText (registeredEvent user))).filterMap sentMail).length =
          1) := by
  constructor
  · rcases (deliver_welcomesOnce config user services).rows with hnone | hone
    · have hmem := mem_savedRows.mpr (save_mem_deliver config user hworking)
      rw [hnone] at hmem
      cases hmem
    · exact hone
  · intro hemail hfrom hkey
    obtain ⟨mail, hmail⟩ := sendMail_mem_deliver hworking hemail hfrom hkey
    have hpos := List.length_pos_of_mem (mem_sentMails.mpr hmail)
    have hlength := (deliver_welcomesOnce config user services).mails
    omega

end Consumer

section System

/-- An event that the consumer is handed, and how its services answer. -/
structure Delivery (ι : Type) where
  request : ι
  event : EventPayload
  services : Services

structure System (ι : Type) where
  requests : Pool ι AuthController.Ans JsError HttpResult (World ι)
  deliveries : List (Delivery ι)

variable {ι : Type} [DecidableEq ι]

/-- A request takes a step, or the broker hands over an event that it has accepted, be it for
the first time or again. -/
inductive Runs (lib : Libraries) : System ι → System ι → Prop where
  | refl (s) : Runs lib s s
  | request {s s' q} (run : Runs lib s s') (i : ι) (c : Conditions)
      (step : s'.requests.step (exec lib) i c = some q) : Runs lib s ⟨q, s'.deliveries⟩
  | delivery {s s'} (run : Runs lib s s') {i : ι} {event : EventPayload}
      (accepted : (i, event) ∈ s'.requests.shared.published) (services : Services) :
      Runs lib s ⟨s'.requests, s'.deliveries ++ [⟨i, event, services⟩]⟩

def Delivery.ops (config : Config) (d : Delivery ι) : List Op :=
  deliver config d.services (eventText d.event)

variable {lib : Libraries} {s s' : System ι}

theorem Runs.requests (run : Runs lib s s') :
    Steps (exec lib) Anything s.requests s'.requests := by
  induction run with
  | refl => exact .refl _
  | request run i c step ih => exact .tail ih i c (by unfold Pool.Permits; split <;> trivial) step
  | delivery run accepted services ih => exact ih

/-- What has been delivered was accepted. -/
theorem Runs.accepted (run : Runs lib s s')
    (h : ∀ d ∈ s.deliveries, (d.request, d.event) ∈ s.requests.shared.published) :
    ∀ d ∈ s'.deliveries, (d.request, d.event) ∈ s'.requests.shared.published := by
  induction run with
  | refl => exact h
  | request run i c step ih => exact fun d hd => published_step step (ih d hd)
  | delivery run accepted services ih =>
    intro d hd
    rcases List.mem_append.mp hd with hd | hd
    · exact ih d hd
    · obtain rfl := List.mem_singleton.mp hd
      exact accepted

/-- What the registrations of a run mean for the users they are about. -/
structure UsersWelcomed {rules : EmailRules} (lib : Libraries) (config : Config)
    (bodies : ι → ValidBody rules) (s : System ι) : Prop where
  delivered : ∀ d ∈ s.deliveries, ∃ u, s.requests.shared.database.addedBy d.request = [u] ∧
    u.email = lib.parameter (bodies d.request).email ∧
    WelcomesOnce u.id (carried (bodies d.request).email) (d.ops config)
  once : ∀ i, (s.requests.shared.publishedBy i).length ≤ 1
  distinct : ∀ i j u v, s.requests.shared.database.addedBy i = [u] →
    s.requests.shared.database.addedBy j = [v] → u.id = v.id → i = j
  answered : ∀ i status message data, s.requests.result i = some (.ok (.json status message data)) →
    i ∉ s.requests.shared.refused → ∃ event u, (i, event) ∈ s.requests.shared.published ∧
      s.requests.shared.database.addedBy i = [u] ∧ data.map UserData.id = some u.id ∧
      ∀ services, Working services →
        (deliver config services (eventText event)).filterMap savedRow = [welcomeRowOf u.id] ∧
        ((carried (bodies i).email).truthy = true → config.emailFrom ≠ [] →
          config.sendinblueApiKey ≠ [] →
            ((deliver config services (eventText event)).filterMap sentMail).length = 1)
  failed : ∀ i e, s.requests.result i = some (.ok (.next e)) → ∀ d ∈ s.deliveries, d.request ≠ i

/-- Whatever requests, broker and services do: from a table of proper usernames, who registers
is welcomed, at the address of the registration, and nobody else. -/
theorem registrations_welcomed {rules : EmailRules} (lib : Libraries) (case : CaseMapping)
    (production : Bool) (config : Config) (bodies : ι → ValidBody rules) {t : Table}
    (ht : ∀ u ∈ t.rows, usernameRegex u.username = true)
    (run : Runs lib ⟨start case production bodies t, []⟩ s) :
    UsersWelcomed lib config bodies s := by
  have hannounced := announced_run ht run.requests
  have haccepted := run.accepted fun d hd => absurd hd List.not_mem_nil
  -- An accepted event is the only one of its request.
  have hevent : ∀ {i event}, (i, event) ∈ s.requests.shared.published →
      Announces lib i (addresses bodies i) s.requests.shared event := by
    intro i event h
    have hmem := mem_publishedBy.mpr h
    rcases hannounced.published i with hnone | ⟨payload, hone, hannounces⟩
    · rw [hnone] at hmem
      cases hmem
    · rw [hone] at hmem
      obtain rfl := List.mem_singleton.mp hmem
      exact hannounces
  constructor
  case delivered =>
    intro d hd
    obtain ⟨user, hpayload, hemail, u, hadded, hid, -, hparameter⟩ := hevent (haccepted d hd)
    change user.email = (bodies d.request).email at hemail
    rw [← hemail, Delivery.ops, hpayload]
    exact ⟨u, hadded, hparameter, hid ▸ deliver_welcomesOnce config user d.services⟩
  case once =>
    intro i
    rcases hannounced.published i with hnone | ⟨payload, hone, -⟩
    · rw [hnone]
      exact Nat.zero_le 1
    · rw [hone]
      exact Nat.le_refl 1
  case distinct =>
    intro i j u v hi hj hid
    exact hannounced.request_unique hi hj hid
  case answered =>
    intro i status message data hresult hrefused
    obtain ⟨user, hdata, hemail, hstored, hpublished⟩ := leaves_run ht run.requests hresult
    obtain ⟨u, hadded, hid, -⟩ := hstored
    have hmem : registeredEvent user ∈ s.requests.shared.publishedBy i := by
      rw [hpublished.resolve_right hrefused]
      exact List.mem_cons_self
    have hids : data.map UserData.id = some u.id := by
      rw [hdata, hid]
      rfl
    refine ⟨registeredEvent user, u, mem_publishedBy.mp hmem, hadded, hids,
      fun services hworking => ?_⟩
    have hcomplete := deliver_complete config user hworking
    rw [hemail] at hcomplete
    rw [hid]
    exact hcomplete
  case failed =>
    intro i e hresult d hd hi
    have hfresh := leaves_run ht run.requests hresult
    obtain ⟨user, -, -, u, hadded, -⟩ := hevent (haccepted d hd)
    rw [hi, hfresh.added] at hadded
    cases hadded

theorem runs_of_steps {q q' : Pool ι AuthController.Ans JsError HttpResult (World ι)}
    (steps : Steps (exec lib) Anything q q') (deliveries : List (Delivery ι)) :
    Runs lib ⟨q, deliveries⟩ ⟨q', deliveries⟩ := by
  induction steps with
  | refl => exact .refl _
  | tail _ i c _ step ih => exact .request ih i c step

end System

def calmServices : Services := fun _ op =>
  match op with
  | .getRepository | .countConsumed _ | .save _ | .send _ | .sendMail _ | .ack | .nack _ => .ok ()
  | .isUserOnline _ | .initializeFirebase => false
  | .readTemplate _ => .ok []
  | .getFullYear => 2024

/-- The first request, from its check to its event. -/
def afterAlice : Pool Bool AuthController.Ans JsError HttpResult (World Bool) :=
  reach (exec plainText) Anything (List.replicate 7 (false, calm "u1"))
    (start asciiMapping true requests Table.empty)

def alice : UserData := ⟨js "u1", js "alice", .json (.str (js "a@example.com"))⟩

theorem registrations_welcomed_alice :
    UsersWelcomed plainText someConfig requests
        ⟨afterAlice, [⟨false, registeredEvent alice, calmServices⟩]⟩ ∧
      (deliver someConfig calmServices (eventText (registeredEvent alice))).filterMap savedRow =
        [welcomeRowOf (js "u1")] := by
  have haccepted : (false, registeredEvent alice) ∈ afterAlice.shared.published := by
    have hpublished : afterAlice.shared.published = [(false, registeredEvent alice)] := by rfl
    rw [hpublished]
    exact List.mem_cons_self
  have hworking : Working calmServices := ⟨fun _ => rfl, fun _ _ => rfl, fun _ _ => rfl⟩
  exact ⟨registrations_welcomed plainText asciiMapping true someConfig requests
    (fun _ h => absurd h List.not_mem_nil)
    (.delivery (runs_of_steps (steps_reach _ _) []) haccepted calmServices),
    (deliver_complete someConfig alice hworking).1⟩

end ChatMicroservices.WelcomeDeliveries

import ChatMicroservices.LookupConsistency
import ChatMicroservices.WelcomeDeliveries

/-!
# Notices reach their receivers

The notification of a message goes through the broker to the notification service, which keeps
it for the receiver and sends an e-mail to the address that came with it. Any number of messages
are looked up at once, and the broker may hand over each accepted notification repeatedly: what
is kept and mailed is about the receiver of the message, and for nobody else.
-/

namespace ChatMicroservices.NoticeDeliveries
open JavaScriptValues EffectPrograms ConcurrentPrograms OpenPools EmailTemplates
  NotificationHandlers NotificationSettlement ReceiverLookups LookupConsistency
open ChatEffects (NotificationPayload)
open MessageNotification (IncomingMessageNotification notificationPayload notifyArgs notifyBody
  whenTruthy)
open NotificationPrivacy (contactMembers envelopeMember leadingMembers member notificationText)
open WelcomeDeliveries (Services Working answering calmServices deliver eq_nil_or_singleton
  length_filterMap_deliver loadTemplate_issues mem_savedRows mem_sentMails savedRow
  sendEmail_atMost sendEmail_issues sentMail consuming consuming_atMost consuming_issues
  mem_consuming)
open DeliveryAttempts (HandsOver emailBody loadTemplate_run mem_trace_bind
  sendMessageEmail_handsOver)
open UsersTable (Table User)
open JSON (carried)

/-- The address that a notification carries, from what a lookup has come to. -/
def addressOf (v : Value) : Value := (whenTruthy (v.field "email")).getD .undefined

/-- A notification as the notification service reads it. -/
structure ReadsNotice (args : IncomingMessageNotification) (address notice : Value) : Prop where
  type : notice.field "type" = .json (.str (js "MESSAGE_RECEIVED"))
  userId : notice.field "userId" = carried args.receiverId
  message : notice.field "message" = .json (.str (notifyBody args))
  fromName : notice.field "fromName" = .json (.str args.senderName)
  isEncrypted : notice.field "isEncrypted" = .json (.bool args.isEncrypted)
  userEmail : notice.field "userEmail" = carried address
  userToken : notice.field "userToken" = .undefined

/-- The fields of a notification, in the order in which they are written. -/
def noticeFields (args : IncomingMessageNotification) (v : Value) : List (String × Value) :=
  [("type", .json (.str (js "MESSAGE_RECEIVED"))), ("userId", args.receiverId),
    ("message", .json (.str (notifyBody args))), ("from", .json (.str args.senderEmail)),
    ("fromName", .json (.str args.senderName)), ("isEncrypted", .json (.bool args.isEncrypted)),
    ("envelope", ((args.envelope.filter fun e => e ≠ []).map fun e => .json (.str e)).getD
      .undefined),
    ("userEmail", addressOf v), ("userToken", .undefined)]

theorem notificationText_eq (args : IncomingMessageNotification) (v : Value) :
    notificationText (noticeOf args v) = JSON.stringify (.obj (written (noticeFields args v))) := by
  have henvelope : ∀ envelope : Option JsString,
      (envelope.toList.map fun e => (js "envelope", Json.str e)) =
        member "envelope" ((envelope.map fun e => .json (.str e)).getD .undefined) := by
    intro envelope
    cases envelope with
    | none => rfl
    | some e => rfl
  have haddress : ∀ address : Option Value, address.toList.flatMap (member "userEmail") =
      member "userEmail" (address.getD .undefined) := by
    intro address
    cases address with
    | none => rfl
    | some a => exact List.append_nil _
  have hwritten : leadingMembers (noticeOf args v) ++ envelopeMember (noticeOf args v) ++
      contactMembers (noticeOf args v) = written (noticeFields args v) := by
    rw [leadingMembers, envelopeMember, contactMembers, henvelope, haddress]
    simp [written, noticeFields, noticeOf, notificationPayload, notifyArgs, addressOf, member,
      whenTruthy, Value.truthy]
  rw [notificationText, hwritten]

theorem noticeText_parses (args : IncomingMessageNotification) (v : Value) :
    ∃ notice, JSON.parse (notificationText (noticeOf args v)) = .ok notice ∧
      ReadsNotice args (addressOf v) (.json notice) := by
  have hkeys : ((noticeFields args v).map fun f => js f.1).Nodup := by
    have hnodup : ["type", "userId", "message", "from", "fromName", "isEncrypted", "envelope",
        "userEmail", "userToken"].map js |>.Nodup := by decide
    exact hnodup
  obtain ⟨notice, hparse, hfields⟩ := written_parses hkeys
  have hfield : ∀ name value, (name, value) ∈ noticeFields args v →
      (Value.json (.obj notice)).field name = carried value := fun name value h =>
    hfields (name, value) h
  refine ⟨.obj notice, notificationText_eq args v ▸ hparse, ?_⟩
  constructor
  case type => exact (hfield "type" _ (by simp [noticeFields])).trans (JSON.carried_str _)
  case userId => exact hfield "userId" _ (by simp [noticeFields])
  case message => exact (hfield "message" _ (by simp [noticeFields])).trans (JSON.carried_str _)
  case fromName => exact (hfield "fromName" _ (by simp [noticeFields])).trans (JSON.carried_str _)
  case isEncrypted =>
    have hbool : carried (.json (.bool args.isEncrypted)) = .json (.bool args.isEncrypted) := by
      rw [carried]
      cases args.isEncrypted <;> rfl
    exact (hfield "isEncrypted" _ (by simp [noticeFields])).trans hbool
  case userEmail => exact hfield "userEmail" _ (by simp [noticeFields])
  case userToken => exact hfield "userToken" .undefined (by simp [noticeFields])

def noticeTitle (args : IncomingMessageNotification) : JsString :=
  js "New message from " ++ if args.senderName = [] then js "Unknown" else args.senderName

/-- The notification that is kept for the receiver of a message. -/
def noticeRow (args : IncomingMessageNotification) : NewNotification where
  userId := carried args.receiverId
  type := .message
  title := noticeTitle args
  message := .json (.str (if args.isEncrypted then js "[Encrypted message]"
    else if args.messageContent = [] then js "You have a new message" else args.messageContent))
  read := false

/-- What an effect of the consumer may be, when it tells of a message. -/
def Tells (args : IncomingMessageNotification) (address : Value) : Op → Prop
  | .save row => row = noticeRow args
  | .sendMail mail =>
    address.truthy = true ∧ mail.toAddress = address ∧ mail.subject = noticeTitle args
  | .send _ => False
  | _ => True

section Consumer

variable {config : Config} {args : IncomingMessageNotification} {address : Value} {notice : Json}
  {content : JsString} {P : Op → Prop}

theorem titleFrom_str (name : JsString) : titleFrom (.json (.str name)) =
    .ok (js "New message from " ++ if name = [] then js "Unknown" else name) := by
  by_cases hname : name = []
  · subst hname
    rfl
  · have htruthy : (Value.json (.str name)).truthy = true := decide_eq_true hname
    rw [titleFrom, orText, if_pos htruthy, if_neg hname]
    rfl

theorem titleFrom_eq (h : ReadsNotice args address (.json notice)) :
    titleFrom ((Value.json notice).field "fromName") = .ok (noticeTitle args) := by
  rw [h.fromName]
  exact titleFrom_str args.senderName

theorem messageRow_eq (h : ReadsNotice args address (.json notice)) :
    messageRow (.json notice) (noticeTitle args) = noticeRow args := by
  have htruthy : (Value.json (.bool args.isEncrypted)).truthy = args.isEncrypted := rfl
  rw [messageRow, noticeRow, h.userId, h.isEncrypted, h.message, htruthy, notifyBody]
  cases args.isEncrypted with
  | true => rfl
  | false =>
    by_cases hempty : args.messageContent = []
    · rw [hempty]
      rfl
    · have htext : (Value.json (.str args.messageContent)).truthy = true := decide_eq_true hempty
      simp only [Bool.false_eq_true, if_false, orText, htext, if_true, hempty]

/-- The consumer of a notification of a message. -/
theorem onNotification_message (h : ReadsNotice args address (.json notice))
    (hparse : JSON.parse content = .ok notice) :
    onNotification config content = consuming (.json (.str (js "MESSAGE_RECEIVED")))
      (notifyMessage config (.json notice)) := by
  have hget : (Value.json notice).destructure "payload" "type" =
      .ok (.json (.str (js "MESSAGE_RECEIVED"))) := by
    rw [Value.destructure_of_not_nullish, h.type]
    intro hnullish
    have htype := h.type
    rw [Value.field_of_nullish hnullish] at htype
    cases htype
  simp only [onNotification, hparse, handleMessage, Program.bind_eq, Program.bind_ok, hget,
    if_true, NotificationSettlement.handleMessageReceived_eq]
  rfl

/-- Without a token there is no push. -/
theorem notifyMessage_eq (h : ReadsNotice args address (.json notice)) :
    notifyMessage config (.json notice) = (do
      Program.attempt (perform (.save (noticeRow args)))
      let _ ← perform (.isUserOnline (carried args.receiverId))
      let messageTpl ← loadTemplate "message.html"
      if (carried address).truthy then sendMessageEmail config (.json notice) messageTpl
      else pure ()) := by
  have htoken : ∀ online : Bool,
      (online && ((Value.json notice).field "userToken").truthy) = false := by
    intro online
    rw [h.userToken]
    exact Bool.and_false online
  simp only [notifyMessage, titleFrom_eq h, htoken, h.userEmail, Program.bind_eq,
    Program.bind_ok, Bool.false_eq_true, if_false]
  rw [messageRow_eq h, h.userId]

theorem sendMessageEmail_issues (h : ReadsNotice args address (.json notice))
    (hyear : P .getFullYear)
    (hmail : ∀ mail : Mail, mail.toAddress = carried address → mail.subject = noticeTitle args →
      P (.sendMail mail)) (messageTpl : JsString) :
    (sendMessageEmail config (.json notice) messageTpl).Issues P := by
  unfold sendMessageEmail
  split
  · trivial
  · simp only [titleFrom_eq h, h.userEmail, Program.bind_eq, Program.bind_ok]
    refine Program.Issues.bind ⟨hyear, fun _ => trivial⟩ fun year => ?_
    exact Program.Issues.bind trivial fun html => sendEmail_issues _ _ _ hmail

/-- Only the address and the row of the message's receiver occur in what is done for it. -/
theorem onNotification_tells (h : ReadsNotice args address (.json notice))
    (hparse : JSON.parse content = .ok notice) :
    (onNotification config content).Issues (Tells args (carried address)) := by
  rw [onNotification_message h hparse]
  refine consuming_issues trivial (fun _ => trivial) trivial trivial ?_
  rw [notifyMessage_eq h]
  refine Program.Issues.bind (Program.Issues.attempt ⟨rfl, fun _ => trivial⟩) fun _ => ?_
  refine Program.Issues.bind ⟨trivial, fun _ => trivial⟩ fun _ => ?_
  refine Program.Issues.bind (loadTemplate_issues _ fun _ => trivial) fun tpl => ?_
  split
  next haddress =>
    exact sendMessageEmail_issues h trivial
      (fun mail hto hsubject => ⟨haddress, hto, hsubject⟩) tpl
  next => trivial

section Counts

variable {Q : Op → Bool} {m n : ℕ}

theorem sendMessageEmail_atMost (hyear : Q .getFullYear = false) (messageTpl : JsString) :
    (sendMessageEmail config (.json notice) messageTpl).AtMost Q 1 := by
  have hnow : (perform .getFullYear).AtMost Q 0 :=
    Program.atMost_of_issues ⟨hyear, fun _ => trivial⟩
  have hdone : ∀ {α : Type} (r : Except JsError α), (Program.done r : Handler α).AtMost Q 0 :=
    fun _ => Program.atMost_done _
  unfold sendMessageEmail
  split
  · trivial
  · refine ((hdone _).bind (n := 1) fun title => ?_).mono (Nat.le_refl 1)
    refine (hnow.bind (n := 1) fun year => ?_).mono (Nat.le_refl 1)
    refine ((hdone _).bind (n := 1) fun html => ?_).mono (Nat.le_refl 1)
    exact ((hdone _).bind (n := 1) fun subject => sendEmail_atMost _ _ _).mono (Nat.le_refl 1)

theorem onNotification_atMost (h : ReadsNotice args address (.json notice))
    (hparse : JSON.parse content = .ok notice)
    (hQ : ∀ op, savedRow op = none → sentMail op = none → Q op = false)
    (hsave : ∀ row, (perform (.save row)).AtMost Q m)
    (hmail : ∀ tpl, (sendMessageEmail config (.json notice) tpl).AtMost Q n) :
    (onNotification config content).AtMost Q (m + n) := by
  have honline : ∀ userId, (perform (.isUserOnline userId)).AtMost Q 0 := fun userId =>
    Program.atMost_of_issues ⟨hQ _ rfl rfl, fun _ => trivial⟩
  have htemplate : (loadTemplate "message.html").AtMost Q 0 :=
    Program.atMost_of_issues (loadTemplate_issues _ fun _ => hQ _ rfl rfl)
  rw [onNotification_message h hparse, notifyMessage_eq h]
  refine consuming_atMost hQ ((hsave _).attempt.bind fun _ => ?_)
  refine ((honline _).bind (n := n) fun _ => ?_).mono (by omega)
  refine (htemplate.bind (n := n) fun tpl => ?_).mono (by omega)
  split
  · exact hmail tpl
  · trivial

end Counts

section Deliveries

variable {v : Value} {services : Services}

variable (config args v services) in
theorem length_savedRows_le :
    ((deliver config services (notificationText (noticeOf args v))).filterMap savedRow).length ≤
      1 := by
  obtain ⟨notice, hparse, h⟩ := noticeText_parses args v
  generalize notificationText (noticeOf args v) = content at hparse ⊢
  have hone : (onNotification config content).AtMost (fun op => (savedRow op).isSome) (1 + 0) := by
    refine onNotification_atMost h hparse (fun op hrow _ => ?_) (fun row => ?_) fun tpl => ?_
    · rw [hrow]
      rfl
    · exact Program.atMost_call _
    · have hnone : (sendMessageEmail config (.json notice) tpl).Issues
          fun op => (savedRow op).isSome = false :=
        sendMessageEmail_issues (P := fun op => (savedRow op).isSome = false) h rfl
          (fun _ _ _ => rfl) tpl
      exact Program.atMost_of_issues hnone
  exact length_filterMap_deliver savedRow hone

variable (config args v services) in
theorem length_sentMails_le :
    ((deliver config services (notificationText (noticeOf args v))).filterMap sentMail).length ≤
      1 := by
  obtain ⟨notice, hparse, h⟩ := noticeText_parses args v
  generalize notificationText (noticeOf args v) = content at hparse ⊢
  have hone : (onNotification config content).AtMost (fun op => (sentMail op).isSome) (0 + 1) := by
    refine onNotification_atMost h hparse (fun op _ hnone => ?_) (fun row => ?_)
      fun tpl => sendMessageEmail_atMost rfl tpl
    · rw [hnone]
      rfl
    · exact Program.atMost_of_issues ⟨rfl, fun _ => trivial⟩
  exact length_filterMap_deliver sentMail hone

theorem deliver_tells {op : Op}
    (hop : op ∈ deliver config services (notificationText (noticeOf args v))) :
    Tells args (carried (addressOf v)) op := by
  obtain ⟨notice, hparse, h⟩ := noticeText_parses args v
  obtain ⟨effect, heffect, rfl⟩ := List.mem_map.mp hop
  exact (onNotification_tells h hparse).mem_trace _ heffect

theorem mem_deliver (h : ReadsNotice args address (.json notice))
    (hparse : JSON.parse content = .ok notice) (hworking : Working services) {op : Op} {n : ℕ}
    (hop : (op, n) ∈ (notifyMessage config (.json notice)).trace (answering services) 2) :
    op ∈ deliver config services content := by
  refine List.mem_map.mpr ⟨(op, n), ?_, rfl⟩
  rw [onNotification_message h hparse]
  exact mem_consuming hworking hop

variable (config args v) in
theorem save_mem_deliver (hworking : Working services) :
    .save (noticeRow args) ∈
      deliver config services (notificationText (noticeOf args v)) := by
  obtain ⟨notice, hparse, h⟩ := noticeText_parses args v
  generalize notificationText (noticeOf args v) = content at hparse ⊢
  refine mem_deliver (n := 2) h hparse hworking ?_
  rw [notifyMessage_eq h]
  exact List.mem_cons_self

variable (args) in
theorem sendMail_mem_deliver (hworking : Working services)
    (hemail : (carried (addressOf v)).truthy = true) (hfrom : config.emailFrom ≠ [])
    (hkey : config.sendinblueApiKey ≠ []) :
    ∃ mail, .sendMail mail ∈
      deliver config services (notificationText (noticeOf args v)) := by
  obtain ⟨notice, hparse, h⟩ := noticeText_parses args v
  generalize notificationText (noticeOf args v) = content at hparse ⊢
  have hbody : ∃ body, toText (emailBody (.json notice)).column = .ok body := by
    have htruthy : (Value.json (.bool args.isEncrypted)).truthy = args.isEncrypted := rfl
    rw [emailBody, h.isEncrypted, htruthy, h.message, orText]
    split
    · exact ⟨_, rfl⟩
    · split
      · exact ⟨_, rfl⟩
      · exact ⟨_, rfl⟩
  obtain ⟨body, hbody⟩ := hbody
  have haddress : ((Value.json notice).field "userEmail").truthy = true := h.userEmail ▸ hemail
  have hsave : (Program.attempt (perform (.save (noticeRow args)))).run (answering services) 2 =
      (.ok (), 3) := by
    simp [Program.attempt, perform, answering, hworking.save]
  obtain ⟨tpl, htpl⟩ := loadTemplate_run (answering services) "message.html" 4
  obtain ⟨op, n, hmem, hhands⟩ : HandsOver config (.json notice) .email
      ((sendMessageEmail config (.json notice) tpl).trace (answering services) 5) :=
    sendMessageEmail_handsOver haddress hfrom hkey (titleFrom_eq h) hbody
  have hdeliver : op ∈ deliver config services content := by
    refine mem_deliver (n := n) h hparse hworking ?_
    rw [notifyMessage_eq h]
    apply mem_trace_bind hsave
    apply mem_trace_bind (p := perform (.isUserOnline (carried args.receiverId)))
      (a := services 3 (.isUserOnline (carried args.receiverId))) rfl
    apply mem_trace_bind htpl
    rw [if_pos hemail]
    exact hmem
  cases op with
  | sendMail mail => exact ⟨mail, hdeliver⟩
  | _ => exact hhands.elim

end Deliveries

/-- The delivery tells the receiver of the message at the address, once at most, and sends no
e-mail where there is no address. -/
structure NotifiesOnce (args : IncomingMessageNotification) (address : Value) (ops : List Op) :
    Prop where
  rows : ops.filterMap savedRow = [] ∨ ops.filterMap savedRow = [noticeRow args]
  mails : (ops.filterMap sentMail).length ≤ 1
  addressed : ∀ mail ∈ ops.filterMap sentMail,
    address.truthy = true ∧ mail.toAddress = address ∧ mail.subject = noticeTitle args
  pushes : ∀ push, .send push ∉ ops

variable (config args) in
theorem deliver_notifiesOnce (v : Value) (services : Services) :
    NotifiesOnce args (carried (addressOf v))
      (deliver config services (notificationText (noticeOf args v))) := by
  refine ⟨?_, length_sentMails_le config args v services, fun mail hmail => ?_,
    fun push hpush => ?_⟩
  · exact eq_nil_or_singleton (length_savedRows_le config args v services) fun row hrow =>
      deliver_tells (mem_savedRows.mp hrow)
  · exact deliver_tells (mem_sentMails.mp hmail)
  · exact deliver_tells hpush

variable (config args) in
/-- A working consumer keeps the notification, and mails it if it can. -/
theorem deliver_complete (v : Value) {services : Services} (hworking : Working services) :
    (deliver config services (notificationText (noticeOf args v))).filterMap savedRow =
        [noticeRow args] ∧
      ((carried (addressOf v)).truthy = true → config.emailFrom ≠ [] →
        config.sendinblueApiKey ≠ [] →
          ((deliver config services (notificationText (noticeOf args v))).filterMap
            sentMail).length = 1) := by
  constructor
  · rcases (deliver_notifiesOnce config args v services).rows with hnone | hone
    · have hmem := mem_savedRows.mpr (save_mem_deliver config args v hworking)
      rw [hnone] at hmem
      cases hmem
    · exact hone
  · intro hemail hfrom hkey
    obtain ⟨mail, hmail⟩ := sendMail_mem_deliver args hworking hemail hfrom hkey
    have hpos := List.length_pos_of_mem (mem_sentMails.mpr hmail)
    have hlength := (deliver_notifiesOnce config args v services).mails
    omega

end Consumer

section System

variable {ι Node : Type} [DecidableEq ι] [DecidableEq Node]

/-- A notification that the consumer is handed, and how its services answer. -/
structure Delivery (ι : Type) where
  message : ι
  payload : NotificationPayload
  services : Services

structure System (ι Node : Type) where
  messages : Pool ι ChatEffects.Ans JsError Unit (World ι Node)
  deliveries : List (Delivery ι)

/-- The messages and what they meet go on, or the broker hands over a notification that it has
accepted, be it for the first time or again. -/
inductive Runs (formats : Formats) (uuid : Node × ℕ ↪ JsString) (node : ι → Node) :
    System ι Node → System ι Node → Prop where
  | refl (s) : Runs formats uuid node s s
  | lookups {s s' q} (run : Runs formats uuid node s s')
      (steps : OpenSteps (exec uuid node) (Moves formats uuid) s'.messages q) :
      Runs formats uuid node s ⟨q, s'.deliveries⟩
  | delivery {s s'} (run : Runs formats uuid node s s') {i : ι} {payload : NotificationPayload}
      (accepted : (i, payload) ∈ s'.messages.shared.published) (services : Services) :
      Runs formats uuid node s ⟨s'.messages, s'.deliveries ++ [⟨i, payload, services⟩]⟩

def Delivery.ops (config : Config) (d : Delivery ι) : List Op :=
  deliver config d.services (notificationText d.payload)

variable {formats : Formats} {uuid : Node × ℕ ↪ JsString} {node : ι → Node}
  {s s' : System ι Node}

theorem Runs.messages (run : Runs formats uuid node s s') :
    OpenSteps (exec uuid node) (Moves formats uuid) s.messages s'.messages := by
  induction run with
  | refl => exact .refl _
  | lookups _ steps ih => exact ih.trans steps
  | delivery _ accepted services ih => exact ih

/-- A run with one delivery. -/
theorem Runs.single {p q : Pool ι ChatEffects.Ans JsError Unit (World ι Node)}
    (steps : OpenSteps (exec uuid node) (Moves formats uuid) p q) {i : ι}
    {payload : NotificationPayload} (accepted : (i, payload) ∈ q.shared.published)
    (services : Services) :
    Runs formats uuid node ⟨p, []⟩ ⟨q, [⟨i, payload, services⟩]⟩ :=
  .delivery (.lookups (.refl _) steps) accepted services

/-- What has been delivered was accepted. -/
theorem Runs.accepted (run : Runs formats uuid node s s')
    (h : ∀ d ∈ s.deliveries, (d.message, d.payload) ∈ s.messages.shared.published) :
    ∀ d ∈ s'.deliveries, (d.message, d.payload) ∈ s'.messages.shared.published := by
  induction run with
  | refl => exact h
  | lookups _ steps ih => exact fun d hd => (published_run steps).subset (ih d hd)
  | delivery _ accepted services ih =>
    intro d hd
    rcases List.mem_append.mp hd with hd | hd
    · exact ih d hd
    · obtain rfl := List.mem_singleton.mp hd
      exact accepted

omit [DecidableEq Node] in
theorem mem_publishedBy {w : World ι Node} {i : ι} {payload : NotificationPayload} :
    payload ∈ w.publishedBy i ↔ (i, payload) ∈ w.published := by
  simp [World.publishedBy]

/-- The address that comes with a notification is the receiver's if the lookup's was. -/
theorem contact_addressOf {users : Table} {receiverId v : Value}
    (h : Contact formats users receiverId (v.field "email")) :
    Contact formats users receiverId (carried (addressOf v)) := by
  rcases h with hnone | ⟨u, hu, hemail, hid⟩
  · left
    rw [addressOf, hnone]
    rfl
  · rw [addressOf, hemail]
    by_cases hempty : u.email = []
    · left
      rw [hempty]
      rfl
    · have htruthy : (Value.json (.str u.email)).truthy = true := decide_eq_true hempty
      right
      refine ⟨u, hu, ?_, hid⟩
      rw [whenTruthy, if_pos htruthy, Option.getD_some, JSON.carried_str]

/-- What the messages of a run mean for their receivers. -/
structure ReceiversNotified (formats : Formats) (uuid : Node × ℕ ↪ JsString) (node : ι → Node)
    (args : ι → IncomingMessageNotification) (config : Config) (s : System ι Node) : Prop where
  once : ∀ i, (s.messages.shared.publishedBy i).length ≤ 1
  delivered : ∀ d ∈ s.deliveries, ∃ address,
    Contact formats s.messages.shared.users (args d.message).receiverId address ∧
      NotifiesOnce (args d.message) address (d.ops config)
  handled : ∀ i r, s.messages.result i = some r → r = .ok () ∧
    (i ∈ s.messages.shared.online ∨ i ∈ s.messages.shared.refused ∨
      ∃ v, Answered node i v s.messages.shared ∧
        s.messages.shared.publishedBy i = [noticeOf (args i) v] ∧
        ∀ services, Working services →
          (deliver config services (notificationText (noticeOf (args i) v))).filterMap savedRow =
            [noticeRow (args i)] ∧
          ((carried (addressOf v)).truthy = true → config.emailFrom ≠ [] →
            config.sendinblueApiKey ≠ [] →
              ((deliver config services (notificationText (noticeOf (args i) v))).filterMap
                sentMail).length = 1))
  expires : ∀ i call, s.messages.shared.calls i = some call →
    (∀ v, ¬ Answered node i v s.messages.shared) →
      call ∈ (s.messages.shared.clients (node i)).timers ∧ Answered node i (.json .null)
        (step formats uuid s.messages.shared (.timeout (node i) call))

/-- Whatever the nodes, the broker and the two other services do: at most one notification is
published for a message, and it is kept and mailed for the receiver of the message only. -/
theorem notices_reach_their_receivers (args : ι → IncomingMessageNotification) (config : Config)
    (users : Table) (run : Runs formats uuid node ⟨messages users args, []⟩ s) :
    ReceiversNotified formats uuid node args config s := by
  obtain ⟨hconsistent, hhandled⟩ := handled_run run.messages
  have haccepted := run.accepted fun d hd => absurd hd List.not_mem_nil
  constructor
  case once =>
    intro i
    rcases hconsistent.published i with hnone | ⟨v, -, hone⟩
    · rw [hnone]
      exact Nat.zero_le 1
    · rw [hone]
      exact Nat.le_refl 1
  case delivered =>
    intro d hd
    have hmem := mem_publishedBy.mpr (haccepted d hd)
    rcases hconsistent.published d.message with hnone | ⟨v, hv, hone⟩
    · rw [hnone] at hmem
      cases hmem
    · rw [hone] at hmem
      have hpayload : d.payload = noticeOf (args d.message) v := List.mem_singleton.mp hmem
      refine ⟨carried (addressOf v), contact_addressOf (hconsistent.contact _ v hv), ?_⟩
      rw [Delivery.ops, hpayload]
      exact deliver_notifiesOnce config (args d.message) v d.services
  case handled =>
    intro i r hr
    obtain ⟨hok, honline | ⟨v, hv, hpublished | hrefused⟩⟩ := hhandled i r hr
    · exact ⟨hok, .inl honline⟩
    · exact ⟨hok, .inr (.inr ⟨v, hv, hpublished, fun services hworking =>
        deliver_complete config (args i) v hworking⟩)⟩
    · exact ⟨hok, .inr (.inl hrefused)⟩
  case expires => exact fun i call hcall hwaits => hconsistent.expires hcall hwaits

end System

/-- A user with an address. -/
def bob : User := ⟨js "u2", js "bob", js "b@example.com", js "hash", 0, 0⟩

def users : Table := (Table.empty.insert bob).getD Table.empty

/-- Ids are texts. -/
def plainFormats : Formats where
  asUuid
    | .json (.str s) => .ok s
    | _ => .error (.failure "invalid input syntax for type uuid")
  toISOString n := js (toString n)

/-- A message for the user. -/
def toBob : IncomingMessageNotification where
  senderName := js "alice"
  senderEmail := js "a@example.com"
  receiverId := .json (.str (js "u2"))
  messageContent := js "[Encrypted message]"
  isEncrypted := true

def connected : Conditions := ⟨false, .working, .working⟩

/-- An instance of the user service that works. -/
def available : Service := ⟨none, 1, 0, 0, ⟨0, fun _ => true⟩, ⟨0, fun _ => true⟩⟩

/-- The message, up to the reply of the user service and from there on. -/
def asked : Pool Unit ChatEffects.Ans JsError Unit (World Unit Bool) :=
  reach (exec ReplyRouting.twoNodes fun _ => true) Anything (List.replicate 3 ((), connected))
    (messages users fun _ => toBob)

def replied : World Unit Bool :=
  step plainFormats ReplyRouting.twoNodes
    (step plainFormats ReplyRouting.twoNodes asked.shared (.serve 0 available)) (.deliver 0 true)

def notified : Pool Unit ChatEffects.Ans JsError Unit (World Unit Bool) :=
  reach (exec ReplyRouting.twoNodes fun _ => true) Anything (List.replicate 2 ((), connected))
    ⟨replied, asked.threads⟩

theorem asked_notified : OpenSteps (exec ReplyRouting.twoNodes fun _ => true)
    (Moves plainFormats ReplyRouting.twoNodes) (messages users fun _ => toBob) notified := by
  have hasked : OpenSteps (exec ReplyRouting.twoNodes fun _ => true)
      (Moves plainFormats ReplyRouting.twoNodes) (messages users fun _ => toBob) asked :=
    .of_steps (steps_reach _ _)
  have hserved := hasked.move ⟨.serve 0 available, rfl⟩
  have hreplied : OpenSteps (exec ReplyRouting.twoNodes fun _ => true)
      (Moves plainFormats ReplyRouting.twoNodes) (messages users fun _ => toBob)
      ⟨replied, asked.threads⟩ := hserved.move ⟨.deliver 0 true, rfl⟩
  exact hreplied.trans (.of_steps (steps_reach _ _))

theorem notified_published : notified.shared.published =
    [((), noticeOf toBob (.json (details plainFormats bob).json))] := by decide +kernel

theorem notices_reach_bob :
    ReceiversNotified plainFormats ReplyRouting.twoNodes (fun _ => true) (fun _ => toBob)
        someConfig ⟨notified, [⟨(), noticeOf toBob (.json (details plainFormats bob).json),
          calmServices⟩]⟩ ∧
      addressOf (.json (details plainFormats bob).json) = .json (.str (js "b@example.com")) := by
  have haccepted : ((), noticeOf toBob (.json (details plainFormats bob).json)) ∈
      notified.shared.published := by
    rw [notified_published]
    exact List.mem_cons_self
  exact ⟨notices_reach_their_receivers (fun _ => toBob) someConfig users
    (.single asked_notified haccepted calmServices), by decide⟩

end ChatMicroservices.NoticeDeliveries

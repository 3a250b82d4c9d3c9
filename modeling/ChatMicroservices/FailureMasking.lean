import ChatMicroservices.ChatFailures
import ChatMicroservices.UserFailures

/-!
# What a client can learn from a failure

In production a client is answered alike whatever a database, the broker or a library says of its
failure, and each error that a client is sent is one that the services word themselves, or a
masked one.
-/

namespace ChatMicroservices.FailureMasking
open JavaScriptValues EffectPrograms ErrorAnswers Authentication RouteValidation RestRoutes
open ForeignErrors FailureCouplings ChatFailures UserFailures
open AuthController (CaseMapping)
open AuthValidation (EmailRules)
open UserDetails (Caller)

section Notifications

open NotificationController

def notificationAlike : (op : NotificationsTable.Op) → NotificationsTable.Ans op →
    NotificationsTable.Ans op → Prop
  | .find _ _ _ => SameOrFailed
  | .count _ _ => SameOrFailed
  | .findOne _ _ => SameOrFailed
  | .save _ => SameOrFailed
  | .setRead _ => SameOrFailed
  | .remove _ => SameOrFailed
  | .insert _ => SameOrFailed

def notificationCoupling : Coupling NotificationsTable.Ans := ⟨Eq, sameEffect notificationAlike⟩

/-- The words of the notification routes. -/
def notificationTexts : List (ℕ × String) :=
  refusals ++ [(404, "Notification not found"),
    (400, "Missing required fields: userId, type, title, message"),
    (403, "Forbidden: Cannot create notifications for other users"),
    (400, "Invalid notification type. Must be: message, system, or alert")]

def notificationErrors (statusCode : ℕ) (message : String) : Prop :=
  (statusCode, message) ∈ notificationTexts

theorem notificationErrors_similar {statusCode : ℕ} {message : String}
    (h : (statusCode, message) ∈ notificationTexts) :
    SimilarError notificationErrors (.apiError statusCode message)
      (.apiError statusCode message) :=
  similar_documented h

theorem newNotification_documented {userId : JsString} {body : Value} {error : JsError}
    (h : newNotification userId body = .error error) :
    SimilarError notificationErrors error error := by
  unfold newNotification at h
  cases howner : body.destructure "req.body" "userId" with
  | error accessError =>
    rw [howner] at h
    have hforeign : Foreign accessError :=
      destructure_throwsForeign body "req.body" "userId" accessError howner
    exact Except.error.inj h ▸ .inr ⟨hforeign, hforeign⟩
  | ok owner =>
    rw [howner] at h
    dsimp only [bind, Except.bind] at h
    split_ifs at h
    · exact Except.error.inj h ▸ notificationErrors_similar (by simp [notificationTexts])
    · split at h
      · exact Except.error.inj h ▸ notificationErrors_similar (by simp [notificationTexts])
      · cases h
    · exact Except.error.inj h ▸ notificationErrors_similar (by simp [notificationTexts])

theorem notificationHandler_coupled (userId : JsString) (request : NotificationController.Request) :
    (handler userId request).Coupled notificationCoupling
      (fun r r' => SimilarVerdict notificationErrors (ofNotifications r) (ofNotifications r'))
      (SimilarError notificationErrors) (handler userId request) := by
  have hnext : ∀ {p : Handler HttpResult}, p.Coupled notificationCoupling
      (fun r r' => SimilarVerdict notificationErrors (ofNotifications r) (ofNotifications r'))
      (SimilarError notificationErrors) p →
      (orNext p).Coupled notificationCoupling
      (fun r r' => SimilarVerdict notificationErrors (ofNotifications r) (ofNotifications r'))
      (SimilarError notificationErrors) (orNext p) := fun h =>
    h.tryCatch fun _ _ he => Program.coupled_done he
  cases request with
  | getNotifications _ _ | getUnreadCount | markAllAsRead =>
    refine hnext ?_
    exact awaited_andThen (Program.coupled_call _ rfl) fun _ => Program.coupled_done rfl
  | markAsRead notificationId | deleteNotification notificationId =>
    refine hnext ?_
    refine awaited_andThen (Program.coupled_call _ rfl) fun notification => ?_
    cases notification with
    | none => exact notificationErrors_similar (by simp [notificationTexts])
    | some notification =>
      exact awaited_andThen (Program.coupled_call _ rfl) fun _ => Program.coupled_done rfl
  | createNotification body =>
    refine hnext ?_
    refine (synchronous fun _ => newNotification_documented).andThen fun entity => ?_
    exact awaited_andThen (Program.coupled_call _ rfl) fun _ => Program.coupled_done rfl

theorem notificationRoute_coupled (req : Authentication.Request) (route : NotificationRoute) :
    (notificationRoute req route).Coupled (routeCoupling notificationCoupling)
      (SimilarVerdict notificationErrors) (SimilarError notificationErrors)
      (notificationRoute req route) := by
  have hcareful : Careful notificationErrors NotificationService.authMiddleware :=
    verified_careful (fun p hp => List.mem_append_left _ hp) attached
  refine readBody_coupled.andThen fun body => ?_
  refine (authenticate_coupled hcareful req).andThen fun user => ?_
  have hchains : ThrowsForeign (route.validation body) := by
    cases route with
    | createNotification => exact (createNotificationValidation_throwsForeign body).map _
    | _ => exact throwsForeign_ok _
  exact validateRequest_coupled hchains fun request =>
    (notificationHandler_coupled user.id request).lift.map fun _ _ hr => hr

end Notifications

/-- What a deployment fixes: the address of the user service, the e-mail rules and the case
mapping of the libraries, and whether cookies are those of production. -/
structure Setting where
  userServiceUrl : Option JsString
  case : CaseMapping
  rules : EmailRules
  production : Bool

/-- A group of routes: how a request runs and ends, which answers differ in the texts of failures
only, and the errors that the services word themselves. -/
structure Endpoint where
  Op : Type
  Ans : Op → Type
  Request : Type
  Result : Type
  Answer : Type
  program : Request → Program Ans JsError Result
  verdict : List Op → Except JsError Result → Verdict Answer
  alike : (op op' : Op) → Ans op → Ans op' → Prop
  documented : ℕ → String → Prop

/-- A route that ends with its verdict; what it throws is passed on. -/
def settled {β : Type} : Except JsError (Verdict β) → Verdict β
  | .ok verdict => verdict
  | .error error => .next error

namespace Endpoint

/-- The routes of `messageRoutes` that write messages. -/
def messages : Endpoint where
  Op := Entry ⊕ ChatEffects.Op
  Ans := RouteAns ChatEffects.Ans
  Request := Authentication.Request × MessageRoute
  Result := Verdict MessageController.HttpResult
  Answer := MessageController.HttpResult
  program := fun (req, route) => messageRoute req route
  verdict := fun _ => settled
  alike := (routeCoupling (messageCoupling messageErrors)).answers
  documented := messageErrors

def pages : Endpoint where
  Op := Entry ⊕ ConversationPages.Op
  Ans := RouteAns ConversationPages.Ans
  Request := Authentication.Request × PageRequest
  Result := Verdict ConversationPages.HttpResult
  Answer := ConversationPages.HttpResult
  program := fun (req, page) => pageRoute req page
  verdict := fun _ => settled
  alike := (routeCoupling pageCoupling).answers
  documented := refusalErrors

def lists (setting : Setting) : Endpoint where
  Op := Entry ⊕ (ListQuery ⊕ UserDetails.Op)
  Ans := RouteAns ListAns
  Request := Authentication.Request × Caller × List ℕ
  Result := Verdict ListResult
  Answer := ListResult
  program := fun (req, caller, schedule) =>
    listRoute setting.userServiceUrl req caller schedule
  verdict := fun _ => settled
  alike := (routeCoupling listCoupling).answers
  documented := refusalErrors

def accounts (setting : Setting) : Endpoint where
  Op := Entry ⊕ AuthController.Op
  Ans := RouteAns AuthController.Ans
  Request := AccountRoute
  Result := Verdict AuthController.HttpResult
  Answer := AuthController.HttpResult
  program := accountRoute setting.case setting.rules setting.production
  verdict := fun _ => settled
  alike := (routeCoupling accountCoupling).answers
  documented := accountErrors

def lookups (setting : Setting) : Endpoint where
  Op := Entry ⊕ AccountLookups.Op
  Ans := RouteAns AccountLookups.Ans
  Request := Authentication.Request × LookupRoute
  Result := Verdict AccountLookups.HttpResult
  Answer := AccountLookups.HttpResult
  program := fun (req, route) => lookupRoute setting.production req route
  verdict := fun _ => settled
  alike := (routeCoupling lookupCoupling).answers
  documented := lookupErrors

def prekeys : Endpoint where
  Op := Entry ⊕ PrekeyDatabase.Op
  Ans := RouteAns PrekeyDatabase.Ans
  Request := Authentication.Request × PrekeyRoute
  Result := Unit
  Answer := PrekeyDatabase.Answer
  program := fun (req, route) => prekeyRoute req route
  verdict := prekeyVerdict
  alike := (routeCoupling prekeyCoupling).answers
  documented := prekeyErrors

def notifications : Endpoint where
  Op := Entry ⊕ NotificationsTable.Op
  Ans := RouteAns NotificationsTable.Ans
  Request := Authentication.Request × NotificationRoute
  Result := Verdict NotificationController.HttpResult
  Answer := NotificationController.HttpResult
  program := fun (req, route) => notificationRoute req route
  verdict := fun _ => settled
  alike := (routeCoupling notificationCoupling).answers
  documented := notificationErrors

/-- Runs that differ in the texts of failures end alike, and every documented error has a status
that can be sent. -/
structure Discreet (e : Endpoint) : Prop where
  similar : ∀ {request run run' r r'}, (e.program request).Performs run r →
    (e.program request).Performs run' r' → AlikeRuns e.alike run run' →
    SimilarVerdict e.documented (e.verdict (run.map Sigma.fst) r)
      (e.verdict (run'.map Sigma.fst) r')
  sendable : ∀ {statusCode message}, e.documented statusCode message →
    100 ≤ statusCode ∧ statusCode ≤ 999

end Endpoint

theorem settled_similar {documented : ℕ → String → Prop} {β : Type}
    {r r' : Except JsError (Verdict β)}
    (h : Agree (SimilarVerdict documented) (SimilarError documented) r r') :
    SimilarVerdict documented (settled r) (settled r') := by
  cases r with
  | ok verdict =>
    cases r' with
    | ok verdict' => exact h
    | error error' => exact h.elim
  | error error =>
    cases r' with
    | ok verdict' => exact h.elim
    | error error' => exact h

def endpoints (setting : Setting) : List Endpoint :=
  [.messages, .pages, .lists setting, .accounts setting, .lookups setting, .prekeys,
    .notifications]

/-- The texts of a group of routes, all with the status of a failure. -/
theorem sendable_of_mem {texts : List (ℕ × String)} (h : ∀ p ∈ texts, 400 ≤ p.1 ∧ p.1 ≤ 404)
    {statusCode : ℕ} {message : String} (hmem : (statusCode, message) ∈ texts) :
    100 ≤ statusCode ∧ statusCode ≤ 999 := by
  have hbounds := h _ hmem
  dsimp only at hbounds
  omega

section Discreet

variable (setting : Setting)

theorem messages_discreet : Endpoint.messages.Discreet where
  similar hrun hrun' halike :=
    settled_similar ((messageRoute_coupled _ _).performs hrun hrun' halike).2
  sendable := sendable_of_mem (by simp [messageTexts, chatRefusals])

theorem pages_discreet : Endpoint.pages.Discreet where
  similar hrun hrun' halike :=
    settled_similar ((pageRoute_coupled _ _).performs hrun hrun' halike).2
  sendable := sendable_of_mem (by simp [chatRefusals])

theorem lists_discreet : (Endpoint.lists setting).Discreet where
  similar hrun hrun' halike :=
    settled_similar ((listRoute_coupled _ _ _ _).performs hrun hrun' halike).2
  sendable := sendable_of_mem (by simp [chatRefusals])

theorem accounts_discreet : (Endpoint.accounts setting).Discreet where
  similar hrun hrun' halike :=
    settled_similar ((accountRoute_coupled _ _ _ _).performs hrun hrun' halike).2
  sendable := sendable_of_mem (by simp [accountTexts])

theorem lookups_discreet : (Endpoint.lookups setting).Discreet where
  similar hrun hrun' halike :=
    settled_similar ((lookupRoute_coupled _ _ _).performs hrun hrun' halike).2
  sendable := sendable_of_mem (by simp [lookupTexts, refusals])

theorem prekeys_discreet : Endpoint.prekeys.Discreet where
  similar hrun hrun' halike := by
    obtain ⟨heffects, hr⟩ := (prekeyRoute_coupled _ _).performs hrun hrun' halike
    refine prekeyVerdict_similar
      (List.forall₂_map_left_iff.mpr (List.forall₂_map_right_iff.mpr heffects)) hr fun hok => ?_
    obtain ⟨event, hmem, hevent⟩ := (prekeyRoute_surely _ _).performs hrun hok
    exact responded_of_mem (List.mem_map_of_mem hmem) hevent
  sendable := by
    rintro statusCode message (hmem | ⟨hoursRemaining, -, heq⟩)
    · exact sendable_of_mem (by simp [prekeyTexts, refusals]) hmem
    · obtain ⟨rfl, -⟩ := Prod.mk.inj heq
      decide

theorem notifications_discreet : Endpoint.notifications.Discreet where
  similar hrun hrun' halike :=
    settled_similar ((notificationRoute_coupled _ _).performs hrun hrun' halike).2
  sendable := sendable_of_mem (by simp [notificationTexts, refusals])

theorem endpoints_discreet {e : Endpoint} (he : e ∈ endpoints setting) : e.Discreet := by
  simp only [endpoints, List.mem_cons, List.not_mem_nil, or_false] at he
  rcases he with rfl | rfl | rfl | rfl | rfl | rfl | rfl
  · exact messages_discreet
  · exact pages_discreet
  · exact lists_discreet setting
  · exact accounts_discreet setting
  · exact lookups_discreet setting
  · exact prekeys_discreet
  · exact notifications_discreet

end Discreet

section Answers

variable {e : Endpoint} {request : e.Request}
variable {run run' : List ((op : e.Op) × e.Ans op)} {r r' : Except JsError e.Result}

theorem reply_similar {runtime : Runtime} (h : runtime.Production)
    {verdict verdict' : Verdict e.Answer}
    (hverdict : SimilarVerdict e.documented verdict verdict') :
    runtime.reply verdict = runtime.reply verdict' := by
  cases verdict with
  | sent answer =>
    cases verdict' with
    | sent answer' => exact congrArg Reply.sent hverdict
    | invalid _ | next _ | silent => exact hverdict.elim
  | invalid errors =>
    cases verdict' with
    | invalid errors' => exact congrArg Reply.invalid hverdict
    | sent _ | next _ | silent => exact hverdict.elim
  | next error =>
    cases verdict' with
    | next error' =>
      rcases hverdict with ⟨_, _, _, rfl, rfl⟩ | ⟨hforeign, hforeign'⟩
      · rfl
      · rw [reply_foreign h hforeign, reply_foreign h hforeign']
    | sent _ | invalid _ | silent => exact hverdict.elim
  | silent => cases verdict' <;> exact hverdict.elim

/-- Whatever a database, the broker or a library says of its failure, a client in production is
answered alike. -/
theorem failures_look_alike (setting : Setting) (runtime : Runtime)
    (he : e ∈ endpoints setting) (h : runtime.Production)
    (hrun : (e.program request).Performs run r) (hrun' : (e.program request).Performs run' r')
    (halike : AlikeRuns e.alike run run') :
    runtime.reply (e.verdict (run.map Sigma.fst) r) =
      runtime.reply (e.verdict (run'.map Sigma.fst) r') :=
  reply_similar h
    ((endpoints_discreet setting he).similar hrun hrun' halike)

/-- Every request is answered. An error that a client is sent in production is one that the
services word themselves, or a masked one. It comes without a stack, and never as the page of the
framework. -/
theorem errors_documented (setting : Setting) (runtime : Runtime)
    (he : e ∈ endpoints setting) (h : runtime.Production)
    (hrun : (e.program request).Performs run r)
    (hforeign : ∀ event ∈ run, e.alike event.1 event.1 event.2 event.2) :
    (∀ code message stack,
      runtime.reply (e.verdict (run.map Sigma.fst) r) = .failed code message stack →
        stack = none ∧ ((∃ text, e.documented code text ∧ message = some (js text)) ∨
          code = 500 ∧ message = some (js "Internal Server Error"))) ∧
      runtime.reply (e.verdict (run.map Sigma.fst) r) ≠ .unhandled ∧
      runtime.reply (e.verdict (run.map Sigma.fst) r) ≠ .silent := by
  have hdiscreet := endpoints_discreet setting he
  have hverdict := hdiscreet.similar hrun hrun (alikeRuns_self hforeign)
  cases hv : e.verdict (run.map Sigma.fst) r with
  | sent answer =>
    exact ⟨fun _ _ _ hreply => (by cases hreply), fun hreply => (by cases hreply),
      fun hreply => (by cases hreply)⟩
  | invalid errors =>
    exact ⟨fun _ _ _ hreply => (by cases hreply), fun hreply => (by cases hreply),
      fun hreply => (by cases hreply)⟩
  | silent =>
    rw [hv] at hverdict
    exact hverdict.elim
  | next error =>
    rw [hv] at hverdict
    rcases hverdict with ⟨statusCode, text, hdocumented, rfl, -⟩ | ⟨hforeign, -⟩
    · obtain ⟨hmin, hmax⟩ := hdiscreet.sendable hdocumented
      rw [reply_apiError h hmin hmax]
      refine ⟨?_, fun hreply => (by cases hreply), fun hreply => (by cases hreply)⟩
      rintro code message stack hreply
      cases hreply
      exact ⟨rfl, .inl ⟨text, hdocumented, rfl⟩⟩
    · rw [reply_foreign h hforeign]
      refine ⟨?_, fun hreply => (by cases hreply), fun hreply => (by cases hreply)⟩
      rintro code message stack hreply
      cases hreply
      exact ⟨rfl, .inr ⟨rfl, rfl⟩⟩

end Answers

/-- The notification service in production. Libraries throw errors with a text and a stack. -/
def someRuntime : Runtime where
  service := .notification
  nodeEnv := some (js "production")
  captured := js "at handler"
  thrown
    | .failure message =>
      ⟨false, true, .undefined, some (js message), .undefined, some (js "at driver")⟩
    | _ => ⟨false, true, .undefined, none, .undefined, none⟩

def someSetting : Setting where
  userServiceUrl := none
  case := RegistrationRaces.asciiMapping
  rules := ⟨fun _ => true, some⟩
  production := true

def alice : ChatEffects.AuthUser := ⟨js "a", js "alice@example.com", js "alice", by decide⟩

def aliceRequest : Authentication.Request := ⟨some (js "Bearer t"), .undefined⟩

/-- The unread count is asked for, and the database fails. -/
def failedCount (message : String) :
    List ((op : Endpoint.notifications.Op) × Endpoint.notifications.Ans op) :=
  [⟨.inl .readBody, .ok .undefined⟩, ⟨.inl (.verify (.json (.str (js "t")))), .ok alice⟩,
    ⟨.inr (.count (js "a") false), .error (.failure message)⟩]

theorem failedCount_performed (message : String) :
    (Endpoint.notifications.program (aliceRequest, .getUnreadCount)).Performs
      (failedCount message) (.ok (.next (.failure message))) :=
  .perform (.perform (.perform (.done _)))

theorem failedCount_alike (message message' : String) :
    AlikeRuns Endpoint.notifications.alike (failedCount message) (failedCount message') :=
  ⟨fun _ => rfl, fun _ => rfl, fun _ => ⟨trivial, trivial⟩, trivial⟩

/-- Neither an address nor an account of the database reaches the client. -/
theorem failures_look_alike_count :
    (someRuntime.reply (.next (.failure "connect ECONNREFUSED 10.0.0.5:5432")) :
      Reply Endpoint.notifications.Answer) =
      someRuntime.reply (.next (.failure "password authentication failed for user notif_svc")) :=
  failures_look_alike someSetting someRuntime (e := Endpoint.notifications) (by simp [endpoints])
    rfl (failedCount_performed _) (failedCount_performed _) (failedCount_alike _ _)

/-- The failure of the database is masked. -/
theorem errors_documented_count :
    (∀ code message stack,
      (someRuntime.reply (.next (.failure "connect ECONNREFUSED 10.0.0.5:5432")) :
        Reply Endpoint.notifications.Answer) = .failed code message stack →
        stack = none ∧ ((∃ text, notificationErrors code text ∧ message = some (js text)) ∨
          code = 500 ∧ message = some (js "Internal Server Error"))) ∧
      (someRuntime.reply (.next (.failure "connect ECONNREFUSED 10.0.0.5:5432")) :
        Reply Endpoint.notifications.Answer) ≠ .unhandled ∧
      (someRuntime.reply (.next (.failure "connect ECONNREFUSED 10.0.0.5:5432")) :
        Reply Endpoint.notifications.Answer) ≠ .silent := by
  refine errors_documented someSetting someRuntime (e := Endpoint.notifications)
    (by simp [endpoints]) rfl (failedCount_performed _) ?_
  intro event hmem
  simp only [failedCount, List.mem_cons, List.not_mem_nil, or_false] at hmem
  rcases hmem with rfl | rfl | rfl
  · exact fun _ => rfl
  · exact fun _ => rfl
  · exact fun _ => ⟨trivial, trivial⟩

end ChatMicroservices.FailureMasking

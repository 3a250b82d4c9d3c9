import ChatMicroservices.FailureCouplings

/-!
# Failures in the chat service

The routes of the chat service keep runs together whose failures differ in their texts.
-/

namespace ChatMicroservices.ChatFailures
open JavaScriptValues EffectPrograms ErrorAnswers Authentication RouteValidation RestRoutes
open ForeignErrors FailureCouplings
open ChatEffects (AuthUser)
open UserDetails (Caller)

section Messages

open ChatEffects MessageNotification MessageController

/-- The process hooks are told about different errors; all other effects are the same. -/
inductive SameMessageEffect (documented : ℕ → String → Prop) :
    ChatEffects.Op → ChatEffects.Op → Prop where
  | same (op : ChatEffects.Op) : SameMessageEffect documented op op
  | uncaughtException {error error' : JsError} (h : SimilarError documented error error') :
      SameMessageEffect documented (.uncaughtException error) (.uncaughtException error')
  | unhandledRejection {error error' : JsError} (h : SimilarError documented error error') :
      SameMessageEffect documented (.unhandledRejection error) (.unhandledRejection error')

def messageAlike : (op : ChatEffects.Op) → ChatEffects.Ans op → ChatEffects.Ans op → Prop
  | .findOne _ | .reread _ => SameOrFailed
  | .insert _ _ => SameOrFailed
  | .update _ _ | .sendRequest _ _ | .publish _ => SameOrFailed
  | .markSeen _ _ => SameOrFailed
  | .isOnline _ | .disconnectPresence _ _ | .hasTyping _ => Eq
  | .currentTime => Eq
  | .registerCallback => Eq
  | .awaitCallback => Eq
  | .emit _ _ | .emitToSelf _ | .emitToAll _ | .acknowledge _ | .clearTyping _ => Eq
  | .armTyping _ _ | .deleteTyping _ => Eq
  | .uncaughtException _ | .unhandledRejection _ => Eq

def messageCoupling (documented : ℕ → String → Prop) : Coupling ChatEffects.Ans :=
  ⟨SameMessageEffect documented, sameEffect messageAlike⟩

variable {documented : ℕ → String → Prop}

theorem readField_coupled (source : String) (v : Value) (key : String) :
    (ChatEffects.readField source v key).Coupled (messageCoupling documented) Eq
      (SimilarError documented) (ChatEffects.readField source v key) :=
  synchronous_foreign (destructure_throwsForeign v source key)

/-- An effect whose answer is no failure. -/
theorem performed {op : ChatEffects.Op} (h : messageAlike op = Eq) :
    (ChatEffects.perform op).Coupled (messageCoupling documented) Eq (SimilarError documented)
      (ChatEffects.perform op) :=
  Program.coupled_calls (.same op) fun _ _ ha => h ▸ ha rfl

/-- The process hook is told about the error of either run. -/
theorem rejected {error error' : JsError} (h : SimilarError documented error error') :
    (ChatEffects.perform (.unhandledRejection error)).Coupled (messageCoupling documented) Eq
      (SimilarError documented) (ChatEffects.perform (.unhandledRejection error')) :=
  Program.coupled_calls (.unhandledRejection h) fun _ _ _ => rfl

theorem logged_coupled {p : ChatEffects.Handler Unit}
    (h : p.Coupled (messageCoupling documented) Eq (SimilarError documented) p) :
    (logged p).Coupled (messageCoupling documented) Eq (SimilarError documented) (logged p) :=
  h.tryCatch fun _ _ _ => Program.coupled_done rfl

theorem getUserDetails_coupled (userId : Value) :
    (getUserDetails userId).Coupled (messageCoupling documented) Eq (SimilarError documented)
      (getUserDetails userId) :=
  (performed rfl).andThen fun _ => awaited (Program.coupled_call _ (.same _))

theorem handleMessageReceived_coupled (args : IncomingMessageNotification) :
    (handleMessageReceived args).Coupled (messageCoupling documented) Eq (SimilarError documented)
      (handleMessageReceived args) := by
  refine (performed rfl).andThen fun recipientOnline => ?_
  split_ifs
  · exact Program.coupled_done rfl
  · refine Program.Coupled.andThen ?_ fun receiver =>
      logged_coupled (awaited (Program.coupled_call _ (.same _)))
    -- The promise of the request is dropped, and its rejection reaches the process hook.
    refine Program.Coupled.tryCatch (E := SimilarError documented) ?_ fun _ _ _ =>
      Program.coupled_done rfl
    refine Program.Coupled.andThen ?_ fun _ => performed rfl
    exact (getUserDetails_coupled args.receiverId).tryCatch fun _ _ h => rejected h

/-- The words of the routes that write messages. -/
def messageTexts : List (ℕ × String) :=
  chatRefusals ++ [(404, "Receiver ID is required"),
    (400, "Sender and receiver cannot be the same user"), (400, "Invalid message content"),
    (400, "Message cannot be empty"), (400, "Message exceeds maximum length of 5000 characters"),
    (400, "Messages must be end-to-end encrypted (invalid envelope)"),
    (400, "Messages must be end-to-end encrypted"), (400, "Sender ID is required")]

def messageErrors (statusCode : ℕ) (message : String) : Prop := (statusCode, message) ∈ messageTexts

theorem messageErrors_similar {statusCode : ℕ} {message : String}
    (h : (statusCode, message) ∈ messageTexts) :
    SimilarError messageErrors (.apiError statusCode message) (.apiError statusCode message) :=
  similar_documented h

theorem validateReceiver_documented {senderId : JsString} {receiverId : Value} {error : JsError}
    (h : validateReceiver senderId receiverId = .error error) :
    SimilarError messageErrors error error := by
  unfold validateReceiver at h
  split_ifs at h
  · exact Except.error.inj h ▸ messageErrors_similar (by simp [messageTexts])
  · exact Except.error.inj h ▸ messageErrors_similar (by simp [messageTexts])

theorem validateContent_documented {message : Value} {error : JsError}
    (h : validateContent message = .error error) : SimilarError messageErrors error error := by
  unfold validateContent at h
  split at h
  · exact Except.error.inj h ▸ messageErrors_similar (by simp [messageTexts])
  · dsimp only at h
    split_ifs at h
    · exact Except.error.inj h ▸ messageErrors_similar (by simp [messageTexts])
    · exact Except.error.inj h ▸ messageErrors_similar (by simp [messageTexts])
    · split at h
      · exact Except.error.inj h ▸ messageErrors_similar (by simp [messageTexts])
      · split_ifs at h
        exact Except.error.inj h ▸ messageErrors_similar (by simp [messageTexts])

/-- A handler passes every error of its `try` block on. -/
theorem orNext_coupled {p : ChatEffects.Handler HttpResult}
    (h : p.Coupled (messageCoupling documented)
      (fun r r' => SimilarVerdict documented (ofMessages r) (ofMessages r'))
      (SimilarError documented) p) :
    (orNext p).Coupled (messageCoupling documented)
      (fun r r' => SimilarVerdict documented (ofMessages r) (ofMessages r'))
      (SimilarError documented) (orNext p) :=
  h.tryCatch fun _ _ he => Program.coupled_done he

theorem sendMessage_coupled (user : AuthUser) (body : Value) :
    (sendMessage user body).Coupled (messageCoupling messageErrors)
      (fun r r' => SimilarVerdict messageErrors (ofMessages r) (ofMessages r'))
      (SimilarError messageErrors) (sendMessage user body) := by
  refine orNext_coupled ?_
  refine (readField_coupled _ _ _).andThen fun receiverId => ?_
  refine (readField_coupled _ _ _).andThen fun message => ?_
  refine (synchronous fun _ => validateReceiver_documented).andThen fun _ => ?_
  refine (synchronous fun _ => validateContent_documented).andThen fun trimmedMessage => ?_
  refine awaited_andThen (Program.coupled_call _ (.same _)) fun newMessage => ?_
  exact (handleMessageReceived_coupled _).andThen fun _ => Program.coupled_done rfl

theorem markAsRead_coupled (user : AuthUser) (senderId : Value) :
    (markAsRead user senderId).Coupled (messageCoupling messageErrors)
      (fun r r' => SimilarVerdict messageErrors (ofMessages r) (ofMessages r'))
      (SimilarError messageErrors) (markAsRead user senderId) := by
  refine orNext_coupled ?_
  split_ifs
  · exact awaited_andThen (Program.coupled_call _ (.same _)) fun _ => Program.coupled_done rfl
  · exact messageErrors_similar (by simp [messageTexts])

theorem messageRoute_coupled (req : Request) (route : MessageRoute) :
    (messageRoute req route).Coupled (routeCoupling (messageCoupling messageErrors))
      (SimilarVerdict messageErrors) (SimilarError messageErrors) (messageRoute req route) := by
  have hcareful : Careful messageErrors ChatService.authMiddleware :=
    chat_careful fun p hp => List.mem_append_left _ hp
  refine readBody_coupled.andThen fun body => ?_
  refine (authenticate_coupled hcareful req).andThen fun user => ?_
  cases route with
  | sendMessage =>
    exact validateRequest_coupled (sendMessageValidation_throwsForeign body) fun body =>
      (sendMessage_coupled user body).lift.map fun _ _ hr => hr
  | markAsRead senderId =>
    exact validateRequest_coupled (throwsForeign_ok _) fun senderId =>
      (markAsRead_coupled user _).lift.map fun _ _ hr => hr

end Messages

section Pages

open ConversationPages

def pageAlike : (op : ConversationPages.Op) → ConversationPages.Ans op →
    ConversationPages.Ans op → Prop
  | .getManyAndCount _ _ _ _ => SameOrFailed

def pageCoupling : Coupling ConversationPages.Ans := ⟨Eq, sameEffect pageAlike⟩

def refusalErrors (statusCode : ℕ) (message : String) : Prop := (statusCode, message) ∈ chatRefusals

theorem fetchConversation_coupled (user : AuthUser) (receiverId : JsString)
    (limit offset : List JsString) :
    (fetchConversation user receiverId limit offset).Coupled pageCoupling
      (fun r r' => SimilarVerdict refusalErrors (ofPages r) (ofPages r'))
      (SimilarError refusalErrors) (fetchConversation user receiverId limit offset) := by
  refine Program.Coupled.tryCatch (E := SimilarError refusalErrors) ?_ fun _ _ he =>
    Program.coupled_done he
  exact awaited_andThen (Program.coupled_call _ rfl) fun _ => Program.coupled_done rfl

theorem pageRoute_coupled (req : Request) (page : PageRequest) :
    (pageRoute req page).Coupled (routeCoupling pageCoupling) (SimilarVerdict refusalErrors)
      (SimilarError refusalErrors) (pageRoute req page) := by
  have hcareful : Careful refusalErrors ChatService.authMiddleware := chat_careful fun p hp => hp
  refine readBody_coupled.andThen fun _ => ?_
  refine (authenticate_coupled hcareful req).andThen fun user => ?_
  exact validateRequest_coupled (throwsForeign_ok _) fun receiverId =>
    (fetchConversation_coupled user receiverId _ _).lift.map fun _ _ hr => hr

end Pages

section Lists

open UserDetails InsertionMaps

def queryAlike : (op : ListQuery) → ListQueryAns op → ListQueryAns op → Prop
  | .conversations _ => SameOrFailed

/-- Responses with the same status, whose texts can both be read or not. -/
def SameResponse (response response' : Response) : Prop :=
  response.status = response'.status ∧ SameOrFailed response.body response'.body

inductive SameDetailsEffect : UserDetails.Op → UserDetails.Op → Prop where
  | same (op : UserDetails.Op) : SameDetailsEffect op op
  | readJson {response response' : Response} (h : SameResponse response response') :
      SameDetailsEffect (.readJson response) (.readJson response')

def detailsAnswers : (op op' : UserDetails.Op) → UserDetails.Ans op → UserDetails.Ans op' → Prop
  | .cacheGet _, .cacheGet _ => Eq
  | .fetch _ _, .fetch _ _ => Agree SameResponse fun error error' => Foreign error ∧ Foreign error'
  | .readJson _, .readJson _ => SameOrFailed
  | _, _ => fun _ _ => True

def detailsCoupling : Coupling UserDetails.Ans := ⟨SameDetailsEffect, detailsAnswers⟩

def listCoupling : Coupling ListAns := Coupling.sum ⟨Eq, sameEffect queryAlike⟩ detailsCoupling

/-- A lookup that fails counts as a user without a name, whatever the failure says. -/
theorem fetchUserDetails_coupled (userServiceUrl : Option JsString) (caller : Caller)
    (userId : JsString) :
    (fetchUserDetails userServiceUrl caller userId).Coupled detailsCoupling Eq
      (SimilarError refusalErrors) (fetchUserDetails userServiceUrl caller userId) := by
  refine Program.Coupled.andThen (Program.coupled_calls (.same _) fun _ _ ha => ha) fun cached => ?_
  cases cached with
  | some data => exact Program.coupled_done rfl
  | none =>
    refine Program.Coupled.tryCatch (E := SimilarError refusalErrors) ?_ fun _ _ _ =>
      Program.coupled_done rfl
    refine Program.Coupled.bind (V := SameResponse) ?_ fun response response' hresponse => ?_
    · exact awaitedFor (Program.coupled_calls (.same _) fun _ _ ha => ha)
    · have hok : response.ok = response'.ok := by rw [Response.ok, Response.ok, hresponse.1]
      rw [hok]
      split_ifs
      · refine Program.Coupled.bind (V := Eq)
          (awaitedFor (Program.coupled_calls (.readJson hresponse) fun _ _ ha => ha))
          fun data _ hdata => hdata ▸ ?_
        exact Program.Coupled.andThen (Program.coupled_calls (.same _) fun _ _ _ => rfl) fun _ =>
          Program.coupled_done rfl
      · exact Program.coupled_done rfl

theorem lookUpAll_coupled (ids : List JsString) (results : InsertionMap JsString Value)
    (uncached : List JsString) :
    (lookUpAll ids results uncached).Coupled detailsCoupling Eq (SimilarError refusalErrors)
      (lookUpAll ids results uncached) := by
  induction ids generalizing results uncached with
  | nil => exact Program.coupled_done rfl
  | cons id ids ih =>
    refine Program.Coupled.andThen (Program.coupled_calls (.same _) fun _ _ ha => ha)
      fun cached => ?_
    cases cached with
    | none => exact ih results (uncached ++ [id])
    | some data => exact ih (results.set id data) uncached

theorem fetchUserDetailsBatch_coupled (userServiceUrl : Option JsString) (caller : Caller)
    (schedule : List ℕ) (userIds : List JsString) :
    (fetchUserDetailsBatch userServiceUrl caller schedule userIds).Coupled detailsCoupling Eq
      (SimilarError refusalErrors)
      (fetchUserDetailsBatch userServiceUrl caller schedule userIds) := by
  refine (lookUpAll_coupled userIds InsertionMap.empty []).andThen fun (results, uncached) => ?_
  have hfetches : List.Forall₂ (Program.Coupled detailsCoupling Eq (SimilarError refusalErrors))
      (uncached.map (fetchUserDetails userServiceUrl caller))
      (uncached.map (fetchUserDetails userServiceUrl caller)) :=
    List.forall₂_same.mpr fun p hp => by
      obtain ⟨userId, -, rfl⟩ := List.mem_map.mp hp
      exact fetchUserDetails_coupled userServiceUrl caller userId
  refine (Program.coupled_together hfetches schedule).bind fun fetched fetched' hsame => ?_
  rw [List.forall₂_eq_eq_eq] at hsame
  exact hsame ▸ Program.coupled_done rfl

theorem getConversations_coupled (userServiceUrl : Option JsString) (user : AuthUser)
    (caller : Caller) (schedule : List ℕ) :
    (getConversations userServiceUrl user caller schedule).Coupled listCoupling
      (fun r r' => SimilarVerdict refusalErrors (ofList r) (ofList r'))
      (SimilarError refusalErrors) (getConversations userServiceUrl user caller schedule) := by
  refine Program.Coupled.tryCatch (E := SimilarError refusalErrors) ?_ fun _ _ he =>
    Program.coupled_done he
  refine awaited_andThen (Program.coupled_callsLeft rfl fun _ _ ha => ha rfl) fun rows => ?_
  exact (fetchUserDetailsBatch_coupled userServiceUrl caller schedule _).lift.andThen fun _ =>
    Program.coupled_done rfl

theorem listRoute_coupled (userServiceUrl : Option JsString) (req : Request) (caller : Caller)
    (schedule : List ℕ) :
    (listRoute userServiceUrl req caller schedule).Coupled (routeCoupling listCoupling)
      (SimilarVerdict refusalErrors) (SimilarError refusalErrors)
      (listRoute userServiceUrl req caller schedule) := by
  have hcareful : Careful refusalErrors ChatService.authMiddleware := chat_careful fun p hp => hp
  refine readBody_coupled.andThen fun _ => ?_
  refine (authenticate_coupled hcareful req).andThen fun user => ?_
  exact (getConversations_coupled userServiceUrl user caller schedule).lift.map fun _ _ hr => hr

end Lists

end ChatMicroservices.ChatFailures

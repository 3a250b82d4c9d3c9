import ChatMicroservices.FailureCouplings

/-!
# Failures in the user service

The routes of the user service keep runs together whose failures differ in their texts. The prekey
handlers answer with an effect, so there the effects are compared up to the error that is passed
on.
-/

namespace ChatMicroservices.UserFailures
open JavaScriptValues EffectPrograms ErrorAnswers Authentication RouteValidation RestRoutes
open ForeignErrors FailureCouplings
open AuthController (CaseMapping)
open AuthValidation (EmailRules)
open ChatEffects (AuthUser)

section Accounts

open AuthController

def accountAlike : (op : AuthController.Op) → AuthController.Ans op → AuthController.Ans op → Prop
  | .findOne _ _ | .findByEmail _ => SameOrFailed
  | .compare _ _ => SameOrFailed
  | .hash _ => SameOrFailed
  | .insert _ => SameOrFailed
  | .sign _ => Eq
  | .currentTime => Eq
  | .cookie _ _ _ => Eq
  | .sendToQueue _ => SameOrFailed

def accountCoupling : Coupling AuthController.Ans := ⟨Eq, sameEffect accountAlike⟩

/-- The words of the routes that register users and log them in. -/
def accountTexts : List (ℕ × String) :=
  [(400, "Invalid username. Use 3-30 characters: letters, numbers, _ or -"),
    (400, "User with this email already exists"), (400, "Username already taken"),
    (401, "Invalid email or password")]

def accountErrors (statusCode : ℕ) (message : String) : Prop := (statusCode, message) ∈ accountTexts

theorem accountErrors_similar {statusCode : ℕ} {message : String}
    (h : (statusCode, message) ∈ accountTexts) :
    SimilarError accountErrors (.apiError statusCode message) (.apiError statusCode message) :=
  similar_documented h

theorem createSendToken_coupled (production : Bool) (user : UserData) :
    (createSendToken production user).Coupled accountCoupling Eq (SimilarError accountErrors)
      (createSendToken production user) := by
  refine Program.Coupled.andThen (Program.coupled_call _ rfl) fun token => ?_
  refine Program.Coupled.andThen (Program.coupled_call _ rfl) fun now => ?_
  exact Program.Coupled.andThen (Program.coupled_call _ rfl) fun _ => Program.coupled_done rfl

theorem welcome_coupled (production : Bool) (user : UserData) :
    (welcome production user).Coupled accountCoupling
      (fun r r' => SimilarVerdict accountErrors (ofAccounts r) (ofAccounts r'))
      (SimilarError accountErrors) (welcome production user) := by
  refine (createSendToken_coupled production user).andThen fun _ => ?_
  refine Program.Coupled.andThen ?_ fun _ => Program.coupled_done rfl
  refine Program.Coupled.tryCatch (E := SimilarError accountErrors) ?_ fun _ _ _ =>
    Program.coupled_done rfl
  refine Program.Coupled.andThen ?_ fun _ => Program.coupled_done rfl
  refine Program.Coupled.tryCatch (E := SimilarError accountErrors) ?_ fun _ _ _ =>
    Program.coupled_done rfl
  exact awaited_andThen (Program.coupled_call _ rfl) fun _ => Program.coupled_done rfl

theorem registration_coupled (case : CaseMapping) (production : Bool)
    (body : AuthValidation.RegistrationBody) :
    (registration case production body).Coupled accountCoupling
      (fun r r' => SimilarVerdict accountErrors (ofAccounts r) (ofAccounts r'))
      (SimilarError accountErrors) (registration case production body) := by
  refine Program.Coupled.tryCatch (E := SimilarError accountErrors) ?_ fun _ _ he =>
    Program.coupled_done he
  refine (synchronous_foreign (uname_throwsForeign case _)).andThen fun uname => ?_
  split_ifs
  · refine awaited_andThen (Program.coupled_call _ rfl) fun existing => ?_
    cases existing with
    | some existing =>
      dsimp only
      split_ifs
      · exact accountErrors_similar (by simp [accountTexts])
      · exact accountErrors_similar (by simp [accountTexts])
    | none =>
      refine awaited_andThen (Program.coupled_call _ rfl) fun password => ?_
      refine Program.Coupled.andThen ?_ fun user => welcome_coupled production user
      exact awaited_andThen (Program.coupled_call _ rfl) fun _ => Program.coupled_done rfl
  · exact accountErrors_similar (by simp [accountTexts])

theorem login_coupled (production : Bool) (email password : Value) :
    (login production email password).Coupled accountCoupling
      (fun r r' => SimilarVerdict accountErrors (ofAccounts r) (ofAccounts r'))
      (SimilarError accountErrors) (login production email password) := by
  refine Program.Coupled.tryCatch (E := SimilarError accountErrors) ?_ fun _ _ he =>
    Program.coupled_done he
  refine awaited_andThen (Program.coupled_call _ rfl) fun user => ?_
  cases user with
  | none => exact accountErrors_similar (by simp [accountTexts])
  | some user =>
    refine awaited_andThen (Program.coupled_call _ rfl) fun passwordMatches => ?_
    split_ifs
    · exact (createSendToken_coupled production _).andThen fun _ => Program.coupled_done rfl
    · exact accountErrors_similar (by simp [accountTexts])

theorem accountRoute_coupled (case : CaseMapping) (rules : EmailRules) (production : Bool)
    (route : AccountRoute) :
    (accountRoute case rules production route).Coupled (routeCoupling accountCoupling)
      (SimilarVerdict accountErrors) (SimilarError accountErrors)
      (accountRoute case rules production route) := by
  refine readBody_coupled.andThen fun body => ?_
  cases route with
  | register =>
    exact validateRequest_coupled (registrationValidation_throwsForeign rules body) fun body =>
      (registration_coupled case production body).lift.map fun _ _ hr => hr
  | login =>
    exact validateRequest_coupled (loginValidation_throwsForeign rules body) fun body =>
      (login_coupled production body.email body.password).lift.map fun _ _ hr => hr

end Accounts

section Lookups

open AccountLookups

def lookupAlike : (op : AccountLookups.Op) → AccountLookups.Ans op → AccountLookups.Ans op → Prop
  | .findOne _ => SameOrFailed
  | .getMany _ _ => SameOrFailed
  | .currentTime => Eq

def lookupCoupling : Coupling AccountLookups.Ans := ⟨Eq, sameEffect lookupAlike⟩

/-- The words of the routes that only read accounts. -/
def lookupTexts : List (ℕ × String) :=
  refusals ++ [(401, "Authentication required"), (404, "User not found"),
    (400, "User ID is required")]

def lookupErrors (statusCode : ℕ) (message : String) : Prop := (statusCode, message) ∈ lookupTexts

theorem lookupErrors_similar {statusCode : ℕ} {message : String}
    (h : (statusCode, message) ∈ lookupTexts) :
    SimilarError lookupErrors (.apiError statusCode message) (.apiError statusCode message) :=
  similar_documented h

theorem answerUser_coupled (id : Value) :
    (answerUser id).Coupled lookupCoupling
      (fun r r' => SimilarVerdict lookupErrors (ofLookups r) (ofLookups r'))
      (SimilarError lookupErrors) (answerUser id) := by
  refine awaited_andThen (Program.coupled_call _ rfl) fun user => ?_
  cases user with
  | none => exact lookupErrors_similar (by simp [lookupTexts])
  | some user => exact Program.coupled_done rfl

theorem getCurrentUser_coupled (user : Option Payload) :
    (getCurrentUser user).Coupled lookupCoupling
      (fun r r' => SimilarVerdict lookupErrors (ofLookups r) (ofLookups r'))
      (SimilarError lookupErrors) (getCurrentUser user) := by
  refine Program.Coupled.tryCatch (E := SimilarError lookupErrors) ?_ fun _ _ he =>
    Program.coupled_done he
  cases user with
  | none => exact lookupErrors_similar (by simp [lookupTexts])
  | some user => exact answerUser_coupled _

theorem getUserById_coupled (userId : JsString) :
    (getUserById userId).Coupled lookupCoupling
      (fun r r' => SimilarVerdict lookupErrors (ofLookups r) (ofLookups r'))
      (SimilarError lookupErrors) (getUserById userId) := by
  refine Program.Coupled.tryCatch (E := SimilarError lookupErrors) ?_ fun _ _ he =>
    Program.coupled_done he
  split_ifs
  · exact lookupErrors_similar (by simp [lookupTexts])
  · exact answerUser_coupled _

/-- A search that fails finds nothing, whatever the failure says. -/
theorem search_coupled (currentUserId : JsString) (q : Value) :
    (search currentUserId q).Coupled lookupCoupling
      (fun r r' => SimilarVerdict lookupErrors (ofLookups r) (ofLookups r'))
      (SimilarError lookupErrors) (search currentUserId q) := by
  unfold search
  split
  · split_ifs
    · exact Program.coupled_done rfl
    · refine Program.Coupled.tryCatch (E := SimilarError lookupErrors) ?_ fun _ _ _ =>
        Program.coupled_done rfl
      exact awaited_andThen (Program.coupled_call _ rfl) fun _ => Program.coupled_done rfl
  · exact Program.coupled_done rfl

theorem logout_coupled (production : Bool) :
    (logout production).Coupled lookupCoupling
      (fun r r' => SimilarVerdict lookupErrors (ofLookups r) (ofLookups r'))
      (SimilarError lookupErrors) (logout production) := by
  refine Program.Coupled.tryCatch (E := SimilarError lookupErrors) ?_ fun _ _ he =>
    Program.coupled_done he
  exact Program.Coupled.andThen (Program.coupled_call _ rfl) fun _ =>
    Program.coupled_done rfl

theorem lookupRoute_coupled (production : Bool) (req : Request) (route : LookupRoute) :
    (lookupRoute production req route).Coupled (routeCoupling lookupCoupling)
      (SimilarVerdict lookupErrors) (SimilarError lookupErrors)
      (lookupRoute production req route) := by
  have hcareful : Careful lookupErrors UserService.authenticated :=
    verified_careful (fun p hp => List.mem_append_left _ hp) id
  refine readBody_coupled.andThen fun _ => ?_
  cases route with
  | logout => exact (logout_coupled production).lift.map fun _ _ hr => hr
  | getCurrentUser =>
    refine (authenticate_coupled hcareful req).andThen fun user => ?_
    exact (getCurrentUser_coupled _).lift.map fun _ _ hr => hr
  | getUserById userId =>
    refine (authenticate_coupled hcareful req).andThen fun _ => ?_
    exact (getUserById_coupled userId).lift.map fun _ _ hr => hr
  | search q =>
    refine (authenticate_coupled hcareful req).andThen fun user => ?_
    exact (search_coupled user.id q).lift.map fun _ _ hr => hr

end Lookups

section Prekeys

open PrekeyDatabase PrekeyController PrekeyBundles JavaScriptOperators

/-- The words of the prekey routes that do not depend on the time. -/
def prekeyTexts : List (ℕ × String) :=
  refusals ++ [(401, "Authentication required"), (400, "userId is required"),
    (404, "No prekey bundle found for user"),
    (400, "deviceId and encryptedBundle are required"), (400, "Invalid encrypted bundle format"),
    (400, "Device ID mismatch"), (400, "deviceId is required"),
    (400, "deviceId and bundle are required")]

/-- The refusal of an early backup says how many hours are left. -/
def prekeyErrors (statusCode : ℕ) (message : String) : Prop :=
  (statusCode, message) ∈ prekeyTexts ∨ ∃ hoursRemaining : ℤ, 1 ≤ hoursRemaining ∧
    (statusCode, message) =
      (429, s!"Rate limit: Please wait {hoursRemaining} hours before backing up keys again")

theorem prekeyErrors_similar {statusCode : ℕ} {message : String}
    (h : (statusCode, message) ∈ prekeyTexts) :
    SimilarError prekeyErrors (.apiError statusCode message) (.apiError statusCode message) :=
  similar_documented (.inl h)

/-- An effect other than an answer. -/
def IsQuiet : PrekeyDatabase.Op → Prop
  | .respond _ => False
  | _ => True

inductive SamePrekeyEffect : PrekeyDatabase.Op → PrekeyDatabase.Op → Prop where
  | same {op : PrekeyDatabase.Op} (h : IsQuiet op) : SamePrekeyEffect op op
  | respond {answer answer' : Answer}
      (h : SimilarVerdict prekeyErrors (ofPrekeys answer) (ofPrekeys answer')) :
      SamePrekeyEffect (.respond answer) (.respond answer')

def prekeyAlike : (op : PrekeyDatabase.Op) → PrekeyDatabase.Ans op → PrekeyDatabase.Ans op → Prop
  | .connect | .startTransaction | .commitTransaction | .rollbackTransaction | .release =>
    SameOrFailed
  | .lockRows _ => SameOrFailed
  | .findOne _ _ | .findLatest _ _ | .reread _ _ => SameOrFailed
  | .insert _ _ _ | .update _ _ _ => SameOrFailed
  | .now => Eq
  | .respond _ => Eq

def prekeyCoupling : Coupling PrekeyDatabase.Ans := ⟨SamePrekeyEffect, sameEffect prekeyAlike⟩

/-- The two runs of a part of a prekey handler. -/
abbrev PrekeyCoupled {α : Type} (p p' : PrekeyDatabase.Handler α) : Prop :=
  p.Coupled prekeyCoupling Eq (SimilarError prekeyErrors) p'

theorem responded_coupled {answer answer' : Answer}
    (h : SimilarVerdict prekeyErrors (ofPrekeys answer) (ofPrekeys answer')) :
    PrekeyCoupled (PrekeyDatabase.perform (.respond answer))
      (PrekeyDatabase.perform (.respond answer')) :=
  Program.coupled_calls (.respond h) fun _ _ _ => rfl

theorem forwarded {p : PrekeyDatabase.Handler Unit} (h : PrekeyCoupled p p) :
    PrekeyCoupled (p.tryCatch fun error => PrekeyDatabase.perform (.respond (.next error)))
      (p.tryCatch fun error => PrekeyDatabase.perform (.respond (.next error))) :=
  h.tryCatch fun _ _ he => responded_coupled he

theorem save_coupled (manager : Manager) (entity : Prekey) :
    PrekeyCoupled (save manager entity) (save manager entity) := by
  refine awaited_andThen (Program.coupled_call _ (.same trivial)) fun stored => ?_
  cases stored with
  | none => exact awaited (Program.coupled_call _ (.same trivial))
  | some stored =>
    dsimp only
    split_ifs
    · exact Program.coupled_done rfl
    · exact awaited (Program.coupled_call _ (.same trivial))

theorem noBundle_coupled : PrekeyCoupled noBundle noBundle := by
  refine awaited_andThen (Program.coupled_call _ (.same trivial)) fun _ => ?_
  exact responded_coupled (prekeyErrors_similar (by simp [prekeyTexts]))

theorem respondBundle_coupled (chosen : Prekey) (bundle : ClientBundle) :
    PrekeyCoupled (respondBundle chosen bundle) (respondBundle chosen bundle) := by
  refine awaited_andThen (Program.coupled_call _ (.same trivial)) fun _ => ?_
  exact responded_coupled rfl

theorem consumeFrom_coupled (chosen : Prekey) :
    PrekeyCoupled (consumeFrom chosen) (consumeFrom chosen) := by
  refine (synchronous_foreign (consumeOneTimePreKey_throwsForeign _)).andThen fun result => ?_
  split
  · exact (save_coupled _ _).andThen fun _ => respondBundle_coupled _ _
  · exact respondBundle_coupled _ _

theorem handOut_coupled (userId : JsString) : PrekeyCoupled (handOut userId) (handOut userId) := by
  refine awaited_andThen (Program.coupled_call _ (.same trivial)) fun bundles => ?_
  split_ifs
  · exact noBundle_coupled
  · refine (synchronous_foreign (chosenBundle_throwsForeign bundles)).andThen fun chosen => ?_
    cases chosen with
    | none => exact noBundle_coupled
    | some chosen =>
      refine (synchronous_foreign (hasProperty_throwsForeign _ _)).andThen fun published => ?_
      split_ifs
      · exact consumeFrom_coupled chosen
      · exact noBundle_coupled

theorem getPrekeyBundle_coupled (userId : JsString) :
    PrekeyCoupled (getPrekeyBundle userId) (getPrekeyBundle userId) := by
  unfold getPrekeyBundle
  split_ifs
  · exact responded_coupled (prekeyErrors_similar (by simp [prekeyTexts]))
  · refine awaited_andThen (Program.coupled_call _ (.same trivial)) fun _ => ?_
    refine awaited_andThen (Program.coupled_call _ (.same trivial)) fun _ => ?_
    refine Program.Coupled.tryFinally ?_ ?_
    · refine (handOut_coupled userId).tryCatch fun error error' he => ?_
      refine Program.Coupled.bind (V := Eq) ?_ fun _ _ _ => responded_coupled he
      refine Program.Coupled.tryCatch (E := SimilarError prekeyErrors) ?_ fun _ _ _ =>
        Program.coupled_done rfl
      exact awaited (Program.coupled_call _ (.same trivial))
    · have hrelease : PrekeyCoupled (Program.attempt (PrekeyDatabase.perform .release))
          (Program.attempt (PrekeyDatabase.perform .release)) :=
        awaited (Program.coupled_call _ (.same trivial))
      exact hrelease.mono (fun _ _ _ => trivial) fun _ _ he => he

theorem checkBackup_documented {deviceId encryptedBundle : Value} {error : JsError}
    (h : checkBackup deviceId encryptedBundle = .error error) :
    SimilarError prekeyErrors error error := by
  unfold checkBackup at h
  split_ifs at h
  all_goals exact Except.error.inj h ▸ prekeyErrors_similar (by simp [prekeyTexts])

/-- Less than a day has passed, so at least one hour is left. -/
theorem checkRate_coupled (lastBackupTimestamp : Option ℕ) :
    PrekeyCoupled (checkRate lastBackupTimestamp) (checkRate lastBackupTimestamp) := by
  cases lastBackupTimestamp with
  | none => exact Program.coupled_done rfl
  | some last =>
    refine Program.Coupled.andThen
      (Program.coupled_call _ (.same trivial)) fun now => ?_
    dsimp only
    split_ifs with hearly
    · refine similar_documented (.inr ⟨_, ?_, rfl⟩)
      exact Int.one_le_ceil_iff.mpr (by linarith)
    · exact Program.coupled_done rfl

theorem storeBackup_coupled (userId : JsString) (deviceId encryptedBundle : Value) :
    PrekeyCoupled (storeBackup userId deviceId encryptedBundle)
      (storeBackup userId deviceId encryptedBundle) := by
  refine (synchronous fun _ => checkBackup_documented).andThen fun _ => ?_
  refine awaited_andThen (Program.coupled_call _ (.same trivial)) fun existing => ?_
  cases existing with
  | some existing =>
    refine (checkRate_coupled _).andThen fun _ => ?_
    refine Program.Coupled.andThen
      (Program.coupled_call _ (.same trivial)) fun now => ?_
    exact (save_coupled _ _).andThen fun _ => responded_coupled rfl
  | none =>
    refine Program.Coupled.andThen
      (Program.coupled_call _ (.same trivial)) fun now => ?_
    exact awaited_andThen (Program.coupled_call _ (.same trivial)) fun _ => responded_coupled rfl

theorem unauthenticated_coupled {α : Type} :
    PrekeyCoupled (throw (.apiError 401 "Authentication required") : PrekeyDatabase.Handler α)
      (throw (.apiError 401 "Authentication required")) :=
  prekeyErrors_similar (by simp [prekeyTexts])

theorem readField_prekeys_coupled (v : Value) (key : String) :
    PrekeyCoupled (PrekeyController.readField v key) (PrekeyController.readField v key) :=
  synchronous_foreign (destructure_throwsForeign v "req.body" key)

theorem storeSignalKeys_coupled (userId : Option JsString) (body : Value) :
    PrekeyCoupled (storeSignalKeys userId body) (storeSignalKeys userId body) := by
  refine (readField_prekeys_coupled _ _).andThen fun deviceId => ?_
  refine (readField_prekeys_coupled _ _).andThen fun encryptedBundle => ?_
  refine forwarded ?_
  split
  · exact unauthenticated_coupled
  · exact unauthenticated_coupled
  · exact storeBackup_coupled _ _ _

theorem fetchKeys_coupled (userId : JsString) (deviceId : Value) :
    PrekeyCoupled (fetchKeys userId deviceId) (fetchKeys userId deviceId) := by
  unfold fetchKeys
  split_ifs
  · refine awaited_andThen (Program.coupled_call _ (.same trivial)) fun record => ?_
    cases record with
    | none => exact responded_coupled rfl
    | some record =>
      dsimp only
      split_ifs
      · exact responded_coupled rfl
      · exact responded_coupled rfl
  · exact prekeyErrors_similar (by simp [prekeyTexts])

theorem getSignalKeys_coupled (userId : Option JsString) (deviceId : Value) :
    PrekeyCoupled (getSignalKeys userId deviceId) (getSignalKeys userId deviceId) := by
  refine forwarded ?_
  split
  · exact unauthenticated_coupled
  · exact unauthenticated_coupled
  · exact fetchKeys_coupled _ _

theorem storeBundle_coupled (userId : JsString) (deviceId bundle : Value) :
    PrekeyCoupled (storeBundle userId deviceId bundle) (storeBundle userId deviceId bundle) := by
  refine awaited_andThen (Program.coupled_call _ (.same trivial)) fun existing => ?_
  cases existing with
  | some existing => exact (save_coupled _ _).andThen fun _ => responded_coupled rfl
  | none =>
    exact awaited_andThen (Program.coupled_call _ (.same trivial)) fun _ => responded_coupled rfl

theorem publishPrekey_coupled (userId : Option JsString) (body : Value) :
    PrekeyCoupled (publishPrekey userId body) (publishPrekey userId body) := by
  refine forwarded ?_
  refine (readField_prekeys_coupled _ _).andThen fun deviceId => ?_
  refine (readField_prekeys_coupled _ _).andThen fun bundle => ?_
  split
  · exact unauthenticated_coupled
  · exact unauthenticated_coupled
  · split_ifs
    · exact prekeyErrors_similar (by simp [prekeyTexts])
    · exact storeBundle_coupled _ _ _

theorem publishRoute_coupled (user : AuthUser) (body : Value) :
    PrekeyCoupled (publishRoute user body) (publishRoute user body) := by
  unfold publishRoute
  split
  · rename_i error herror
    have hforeign : Foreign error := sanitize_throwsForeign _ _ error herror
    exact .inr ⟨hforeign, hforeign⟩
  · unfold PrekeyValidation.postPrekeys
    dsimp only
    split_ifs
    · exact publishPrekey_coupled _ _
    · exact responded_coupled rfl

theorem prekeyRoute_coupled (req : Request) (route : PrekeyRoute) :
    (prekeyRoute req route).Coupled (routeCoupling prekeyCoupling) Eq
      (SimilarError prekeyErrors) (prekeyRoute req route) := by
  have hcareful : Careful prekeyErrors UserService.authenticated :=
    verified_careful (fun p hp => .inl (List.mem_append_left _ hp)) id
  refine readBody_coupled.andThen fun body => ?_
  cases route with
  | getPrekeyBundle userId => exact (getPrekeyBundle_coupled userId).lift
  | storeSignalKeys =>
    exact (authenticate_coupled hcareful req).andThen fun user =>
      (storeSignalKeys_coupled _ _).lift
  | getSignalKeys deviceId =>
    exact (authenticate_coupled hcareful req).andThen fun user =>
      (getSignalKeys_coupled _ _).lift
  | publishPrekey =>
    exact (authenticate_coupled hcareful req).andThen fun user =>
      (publishRoute_coupled user body).lift

theorem responded_quiet {op : PrekeyDatabase.Op} (h : IsQuiet op)
    (effects : List (Entry ⊕ PrekeyDatabase.Op)) :
    responded (.inr op :: effects) = responded effects := by
  cases op with
  | respond answer => exact h.elim
  | _ => rfl

/-- The answers of two runs go together, or both have none. -/
theorem responded_similar {effects effects' : List (Entry ⊕ PrekeyDatabase.Op)}
    (h : List.Forall₂ (Sum.LiftRel Eq SamePrekeyEffect) effects effects') :
    (responded effects = none ∧ responded effects' = none) ∨
      ∃ answer answer', responded effects = some answer ∧ responded effects' = some answer' ∧
        SimilarVerdict prekeyErrors (ofPrekeys answer) (ofPrekeys answer') := by
  induction h with
  | nil => exact .inl ⟨rfl, rfl⟩
  | cons hop rest ih =>
    cases hop with
    | inl hentry => exact ih
    | inr hprekey =>
      cases hprekey with
      | respond hanswer => exact .inr ⟨_, _, rfl, rfl, hanswer⟩
      | same hquiet => rwa [responded_quiet hquiet, responded_quiet hquiet]

section Answered

/-- An answer of a handler. -/
abbrev Answers : PrekeyDatabase.Op → Prop := fun op => ¬ IsQuiet op

theorem respond_surely (answer : PrekeyDatabase.Answer) :
    (PrekeyDatabase.perform (.respond answer)).Surely Answers :=
  Program.surely_call fun h => h

theorem noBundle_surely : PrekeyController.noBundle.Surely Answers :=
  Program.surely_bind _ fun _ => respond_surely _

theorem respondBundle_surely (chosen : PrekeyDatabase.Prekey)
    (bundle : PrekeyBundles.ClientBundle) :
    (PrekeyController.respondBundle chosen bundle).Surely Answers :=
  Program.surely_bind _ fun _ => respond_surely _

theorem handOut_surely (userId : JsString) : (PrekeyController.handOut userId).Surely Answers := by
  refine Program.surely_bind _ fun bundles => ?_
  split_ifs
  · exact noBundle_surely
  · refine Program.surely_bind _ fun chosen => ?_
    cases chosen with
    | none => exact noBundle_surely
    | some chosen =>
      refine Program.surely_bind _ fun published => ?_
      split_ifs
      · refine Program.surely_bind _ fun result => ?_
        split
        · exact Program.surely_bind _ fun _ => respondBundle_surely _ _
        · exact respondBundle_surely _ _
      · exact noBundle_surely

theorem getPrekeyBundle_surely (userId : JsString) :
    (PrekeyController.getPrekeyBundle userId).Surely Answers := by
  unfold PrekeyController.getPrekeyBundle
  split_ifs
  · exact respond_surely _
  · refine Program.surely_bind _ fun _ => Program.surely_bind _ fun _ => ?_
    refine Program.Surely.tryFinally ((handOut_surely userId).tryCatch fun error => ?_)
    exact Program.surely_bind _ fun _ => respond_surely _

theorem storeBackup_surely (userId : JsString) (deviceId encryptedBundle : Value) :
    (PrekeyController.storeBackup userId deviceId encryptedBundle).Surely Answers := by
  refine Program.surely_bind _ fun _ => Program.surely_bind _ fun existing => ?_
  cases existing with
  | some existing =>
    exact Program.surely_bind _ fun _ => Program.surely_bind _ fun _ =>
      Program.surely_bind _ fun _ => respond_surely _
  | none =>
    exact Program.surely_bind _ fun _ => Program.surely_bind _ fun _ => respond_surely _

theorem storeSignalKeys_surely (userId : Option JsString) (body : Value) :
    (PrekeyController.storeSignalKeys userId body).Surely Answers := by
  refine Program.surely_bind _ fun _ => Program.surely_bind _ fun _ => ?_
  refine Program.Surely.tryCatch ?_ fun _ => respond_surely _
  split
  · exact Program.surely_error _
  · exact Program.surely_error _
  · exact storeBackup_surely _ _ _

theorem getSignalKeys_surely (userId : Option JsString) (deviceId : Value) :
    (PrekeyController.getSignalKeys userId deviceId).Surely Answers := by
  refine Program.Surely.tryCatch ?_ fun _ => respond_surely _
  split
  · exact Program.surely_error _
  · exact Program.surely_error _
  · unfold PrekeyController.fetchKeys
    split_ifs
    · refine Program.surely_bind _ fun record => ?_
      cases record with
      | none => exact respond_surely _
      | some record =>
        dsimp only
        split_ifs
        · exact respond_surely _
        · exact respond_surely _
    · exact Program.surely_error _

theorem publishRoute_surely (user : AuthUser) (body : Value) :
    (publishRoute user body).Surely Answers := by
  unfold publishRoute
  split
  · exact Program.surely_error _
  · unfold PrekeyValidation.postPrekeys
    dsimp only
    split_ifs
    · refine Program.Surely.tryCatch ?_ fun _ => respond_surely _
      refine Program.surely_bind _ fun deviceId => Program.surely_bind _ fun bundle => ?_
      split
      · exact Program.surely_error _
      · exact Program.surely_error _
      · split_ifs
        · exact Program.surely_error _
        · refine Program.surely_bind _ fun existing => ?_
          cases existing with
          | some existing => exact Program.surely_bind _ fun _ => respond_surely _
          | none => exact Program.surely_bind _ fun _ => respond_surely _
    · exact respond_surely _

theorem prekeyRoute_surely (req : Request) (route : PrekeyRoute) :
    (prekeyRoute req route).Surely (Sum.elim (fun _ => False) Answers) := by
  refine Program.surely_bind _ fun body => ?_
  cases route with
  | getPrekeyBundle userId => exact (getPrekeyBundle_surely userId).lift
  | storeSignalKeys => exact Program.surely_bind _ fun user => (storeSignalKeys_surely _ _).lift
  | getSignalKeys deviceId =>
    exact Program.surely_bind _ fun user => (getSignalKeys_surely _ _).lift
  | publishPrekey => exact Program.surely_bind _ fun user => (publishRoute_surely user body).lift

/-- An effect that answers is found. -/
theorem responded_of_mem {effects : List (Entry ⊕ PrekeyDatabase.Op)}
    {op : Entry ⊕ PrekeyDatabase.Op} (hmem : op ∈ effects)
    (hop : Sum.elim (fun _ => False) Answers op) : responded effects ≠ none := by
  induction effects with
  | nil => exact absurd hmem List.not_mem_nil
  | cons first effects ih =>
    rcases List.mem_cons.mp hmem with rfl | hrest
    · cases op with
      | inl entry => exact hop.elim
      | inr op =>
        cases op with
        | respond answer => exact Option.some_ne_none answer
        | _ => exact absurd trivial hop
    · cases first with
      | inl entry => exact ih hrest
      | inr first =>
        cases first with
        | respond answer => exact Option.some_ne_none answer
        | _ => exact ih hrest

end Answered

theorem prekeyVerdict_similar {effects effects' : List (Entry ⊕ PrekeyDatabase.Op)}
    {r r' : Except JsError Unit}
    (h : List.Forall₂ (Sum.LiftRel Eq SamePrekeyEffect) effects effects')
    (hr : Agree Eq (SimilarError prekeyErrors) r r')
    (hanswered : r = .ok () → responded effects ≠ none) :
    SimilarVerdict prekeyErrors (prekeyVerdict effects r) (prekeyVerdict effects' r') := by
  unfold prekeyVerdict
  rcases responded_similar h with ⟨hnone, hnone'⟩ | ⟨answer, answer', hsome, hsome', hanswer⟩
  · rw [hnone, hnone']
    cases r with
    | ok _ => exact absurd hnone (hanswered rfl)
    | error error =>
      cases r' with
      | ok _ => exact hr.elim
      | error error' => exact hr
  · rw [hsome, hsome']
    exact hanswer

end Prekeys

end ChatMicroservices.UserFailures

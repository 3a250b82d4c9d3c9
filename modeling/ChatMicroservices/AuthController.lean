import ChatMicroservices.AuthValidation
import ChatMicroservices.EffectPrograms
import ChatMicroservices.UsersTable

/-!
# Registration and login

`registration` looks for a user with the same e-mail address or username, stores the new user,
sets the cookie with a token, and publishes an event for the notification service. The check and
the insertion are two statements. `login` compares the password with the stored hash. Metrics
and log lines have no effect that a handler can observe.
-/

namespace ChatMicroservices.AuthController
open JavaScriptValues JavaScriptOperators EffectPrograms UsersTable AuthValidation
open EmailTemplates (toText)
open PrekeyValidation (lengthInCharacters_ascii)

def lowerLetter (u : UInt16) : UInt16 := if isUpperCase u then u + 0x20 else u

/-- `toLowerCase` of the runtime, of which only the case of ASCII text is fixed here. -/
structure CaseMapping where
  toLowerCase : JsString → JsString
  ascii : ∀ s, (∀ u ∈ s, u < 0x80) → toLowerCase s = s.map lowerLetter

/-- The payload of a token, which `sign` signs with `JWT_SECRET` for one day. -/
structure Claims where
  username : JsString
  email : Value
  id : JsString

inductive SameSite where
  | strict | lax
  deriving DecidableEq

structure CookieOptions where
  expires : ℕ
  secure : Bool
  httpOnly : Bool
  sameSite : SameSite
  path : String

/-- What `save` is given for a new user. -/
structure NewUser where
  username : JsString
  email : Value
  password : JsString

structure EventPayload where
  type : String
  userId : JsString
  userEmail : Value
  fromName : String
  message : String

inductive Op where
  | findOne (email : Value) (username : JsString)
  | findByEmail (email : Value)
  | hash (password : Value)
  | compare (password : Value) (hashedPassword : JsString)
  | insert (row : NewUser)
  | sign (claims : Claims)
  | currentTime
  | cookie (name : String) (token : JsString) (options : CookieOptions)
  | sendToQueue (payload : EventPayload)

@[reducible] def Ans : Op → Type
  | .findOne _ _ | .findByEmail _ => Except JsError (Option User)
  | .compare _ _ => Except JsError Bool
  | .hash _ => Except JsError JsString
  | .insert _ => Except JsError JsString
  | .sign _ => JsString
  | .currentTime => ℕ
  | .cookie _ _ _ => Unit
  | .sendToQueue _ => Except JsError Unit

abbrev Handler (α : Type) := Program Ans JsError α

def perform (op : Op) : Handler (Ans op) := Program.call op

/-- Synchronous code, which returns or throws. -/
@[simp] def sync {α : Type} (r : Except JsError α) : Handler α := .done r

/-- `userData`, and what `save` returns: the e-mail address is the one of the request. -/
structure UserData where
  id : JsString
  username : JsString
  email : Value

/-- How a handler ends the request. -/
inductive HttpResult where
  | json (status : ℕ) (message : String) (data : Option UserData)
  | next (error : JsError)

/-- The handler's `try { … } catch (error) { _next(error) }`. -/
def orNext (p : Handler HttpResult) : Handler HttpResult :=
  p.tryCatch fun error => pure (.next error)

def COOKIE_EXPIRATION_DAYS : ℕ := 1

def getCookieOptions (production : Bool) (now : ℕ) : CookieOptions where
  expires := now + COOKIE_EXPIRATION_DAYS * 24 * 60 * 60 * 1000
  secure := production
  httpOnly := true
  sameSite := if production then .strict else .lax
  path := "/"

def createSendToken (production : Bool) (user : UserData) : Handler JsString := do
  let token ← perform (.sign ⟨user.username, user.email, user.id⟩)
  let now ← perform .currentTime
  perform (.cookie "jwt" token (getCookieOptions production now))
  pure token

/-- A missing channel and a channel that throws are both logged. -/
def publishNotification (payload : EventPayload) : Handler Bool :=
  Program.tryCatch (do
    Program.attempt (perform (.sendToQueue payload))
    pure true) fun _ => pure false

/-- `String(username || '').trim().toLowerCase()` -/
def uname (case : CaseMapping) (username : Value) : Except JsError JsString :=
  match if username.truthy then username else .json (.str []) with
  | .json v => (toText v).map fun text => case.toLowerCase (trim text)
  | .undefined | .function => .ok []

/-- `/^[a-z0-9_-]{3,30}$/` -/
def usernameRegex (s : JsString) : Bool :=
  3 ≤ s.length ∧ s.length ≤ 30 ∧
    s.all fun u => isLowerCase u ∨ JSON.isDigit u ∨ u = 0x5F ∨ u = 0x2D

/-- `userRepo.save(…)` of an entity without an id. -/
def save (row : NewUser) : Handler UserData := do
  let id ← Program.attempt (perform (.insert row))
  pure ⟨id, row.username, row.email⟩

def registeredEvent (user : UserData) : EventPayload where
  type := "USER_REGISTERED"
  userId := user.id
  userEmail := user.email
  fromName := "System"
  message := "Welcome to the Chat App!"

/-- What follows the insertion. -/
def welcome (production : Bool) (user : UserData) : Handler HttpResult := do
  let _ ← createSendToken production user
  Program.tryCatch (do
    let _ ← publishNotification (registeredEvent user)
    pure ()) fun _ => pure ()
  pure (.json 200 "User registered successfully" (some user))

/-- What follows the check for another user. -/
def storeUser (production : Bool) (uname : JsString) (email password : Value) :
    Handler HttpResult := do
  let password ← Program.attempt (perform (.hash password))
  let user ← save ⟨uname, email, password⟩
  welcome production user

/-- The `try` block of `registration`. -/
def tryRegistration (case : CaseMapping) (production : Bool) (body : RegistrationBody) :
    Handler HttpResult := do
  let uname ← sync (uname case body.username)
  if ¬ usernameRegex uname then
    throw (.apiError 400 "Invalid username. Use 3-30 characters: letters, numbers, _ or -")
  else
    match ← Program.attempt (perform (.findOne body.email uname)) with
    | some existing =>
      if (Value.json (.str existing.email)).strictEq body.email then
        throw (.apiError 400 "User with this email already exists")
      else throw (.apiError 400 "Username already taken")
    | none => storeUser production uname body.email body.password

def registration (case : CaseMapping) (production : Bool) (body : RegistrationBody) :
    Handler HttpResult := orNext (tryRegistration case production body)

def login (production : Bool) (email password : Value) : Handler HttpResult := orNext do
  match ← Program.attempt (perform (.findByEmail email)) with
  | none => throw (.apiError 401 "Invalid email or password")
  | some user =>
    let passwordMatches ← Program.attempt (perform (.compare password user.password))
    if ¬ passwordMatches then throw (.apiError 401 "Invalid email or password")
    else
      let _ ← createSendToken production ⟨user.id, user.username, .json (.str user.email)⟩
      pure (.json 200 "Login successful" none)

theorem lowerLetter_handle {u : UInt16} (h : isHandleChar u = true) :
    isLowerCase (lowerLetter u) ∨ JSON.isDigit (lowerLetter u) ∨ lowerLetter u = 0x5F ∨
      lowerLetter u = 0x2D := by
  rw [lowerLetter]
  split_ifs with hupper
  · left
    simp only [isUpperCase, isLowerCase, decide_eq_true_eq, UInt16.le_iff_toNat_le,
      UInt16.toNat_add] at hupper ⊢
    simp at hupper ⊢
    omega
  · simpa [isHandleChar, hupper] using h

theorem usernameRegex_map {s : JsString} (hhandle : isHandle s = true)
    (hlength : isLength 3 30 s = true) : usernameRegex (s.map lowerLetter) = true := by
  simp only [isHandle, Bool.decide_and, Bool.and_eq_true, decide_eq_true_eq,
    List.all_eq_true] at hhandle
  have hascii : ∀ u ∈ s, u < 0x80 := fun u hu => (isHandleChar_ascii (hhandle.2 u hu)).1
  simp only [isLength, lengthInCharacters_ascii hascii, decide_eq_true_eq] at hlength
  simp only [usernameRegex, List.length_map, decide_eq_true_eq, List.all_eq_true,
    List.forall_mem_map]
  exact ⟨hlength.1, hlength.2, fun u hu => lowerLetter_handle (hhandle.2 u hu)⟩

/-- The controller refuses no text that the validation has accepted as a username: it only
lowers its letters. -/
theorem uname_of_valid {rules : EmailRules} (case : CaseMapping) (b : ValidBody rules)
    {s : JsString} (h : b.username = .json (.str s)) :
    uname case b.username = .ok (s.map lowerLetter) ∧
      usernameRegex (s.map lowerLetter) = true := by
  have hchain := b.username_ok
  rw [h] at hchain ⊢
  obtain ⟨hhandle, hlength⟩ := usernameChain_ok hchain
  refine ⟨?_, usernameRegex_map hhandle hlength⟩
  simp only [isHandle, Bool.decide_and, Bool.and_eq_true, decide_eq_true_eq,
    List.all_eq_true] at hhandle
  have htrim : trim s = s := trim_eq_self fun u hu => (isHandleChar_ascii (hhandle.2 u hu)).2
  have hlower := case.ascii s fun u hu => (isHandleChar_ascii (hhandle.2 u hu)).1
  have htruthy : (Value.json (.str s)).truthy = true := by simpa [Value.truthy] using hhandle.1
  have htext : case.toLowerCase (trim s) = s.map lowerLetter := by rw [htrim, hlower]
  rw [uname, if_pos htruthy]
  exact congrArg Except.ok htext

end ChatMicroservices.AuthController

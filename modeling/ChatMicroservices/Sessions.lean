import ChatMicroservices.Authentication
import ChatMicroservices.JsonRoundTrip
import ChatMicroservices.NotificationPrivacy
import ChatMicroservices.RegistrationRaces
import Mathlib.Logic.Function.Basic

/-!
# Sessions of browsers

A registration or a login leaves a token in the browser's cookie `jwt`, and a logout clears it.
Every service and the Socket.IO server recognise the user by it until it expires. The abstract
level only says which browser is signed in as whom since when; cookies, headers and tokens are
the concrete level, and every visit comes to what the abstract level says.
-/

namespace ChatMicroservices.Sessions
open JavaScriptValues EffectPrograms AuthController Authentication CookieHeaders
open AuthValidation (RegistrationBody isHandleChar)
open JSON (carried)
open NotificationPrivacy (member)
open RegistrationRaces (asciiMapping)

/-- A digit of `base64url`, or the point between the parts of a token. -/
def isTokenChar (u : UInt16) : Bool := isHandleChar u ∨ u = 0x2E

/-- The payload carries the claims. -/
structure Carries (claims : Claims) (user : IUser) : Prop where
  id : user.id = .json (.str claims.id)
  username : user.username = .json (.str claims.username)
  email : user.email = carried claims.email

/-- A token that is signed at some millisecond expires in the second one day later. -/
def expiry (signedAt : ℕ) : ℕ := signedAt / 1000 + 86400

/-- `sign` with `expiresIn: '1d'`, and `verify`, for one secret. -/
structure TokenLibrary where
  sign : Claims → ℕ → JsString
  verify : ℕ → Verify
  sign_ne : ∀ claims t, sign claims t ≠ []
  sign_chars : ∀ claims t, (sign claims t).all isTokenChar = true
  verify_sign : ∀ claims t now, now / 1000 < expiry t →
    ∃ decoded, verify now (.json (.str (sign claims t))) = .ok decoded ∧
      Carries claims (attached decoded)
  verify_expired : ∀ claims t now, expiry t ≤ now / 1000 →
    ∃ thrown, verify now (.json (.str (sign claims t))) = .error thrown ∧
      thrown.isTokenExpiredError = true

/-- The cookie parser: `req.cookies` has a cookie under its name, of several the first. -/
structure CookieParser where
  parse : Option JsString → Value
  parse_none : (parse none).field "jwt" = .undefined
  parse_render : ∀ cookies, cookies ≠ [] → (∀ c ∈ cookies, http.Proper c) →
    (∀ c ∈ cookies, c.name = js "jwt" → c.value.all isTokenChar = true) →
    (parse (some (http.render cookies))).field "jwt" =
      ((cookies.find? fun c => c.name = js "jwt").map fun c => .json (.str c.value)).getD .undefined

/-- A cookie of the services as a browser keeps it. -/
structure StoredCookie where
  name : JsString
  value : JsString
  path : String
  secure : Bool
  expires : ℕ

/-- What `Set-Cookie` says of a cookie: its date has no milliseconds. -/
def storedCookie (name : String) (value : JsString) (options : CookieOptions) : StoredCookie where
  name := js name
  value := value
  path := options.path
  secure := options.secure
  expires := options.expires / 1000 * 1000

abbrev Jar : Type := List StoredCookie

/-- A cookie takes the place of one with its name and path, and is gone once it has expired. -/
def Jar.store (jar : Jar) (now : ℕ) (cookie : StoredCookie) : Jar :=
  (jar.filter fun old => ¬ (old.name = cookie.name ∧ old.path = cookie.path)) ++
    if now < cookie.expires then [cookie] else []

/-- The cookies that are sent with a request to the services. -/
def Jar.sent (jar : Jar) (now : ℕ) (https : Bool) : List (Cookie UInt16) :=
  (jar.filter fun c => now < c.expires ∧ (c.secure → https)).map fun c => ⟨c.name, c.value⟩

/-- `res.clearCookie(name, options)` -/
def clearCookie (name : String) (options : CookieOptions) : StoredCookie :=
  storedCookie name [] { options with expires := 1 }

def logout (production : Bool) (now : ℕ) : StoredCookie :=
  clearCookie "jwt" (getCookieOptions production now)

/-- The clock, in milliseconds, and the cookies of each browser. -/
structure World (ι : Type) where
  clock : ℕ
  jars : ι → Jar

/-- What databases and libraries answer to a request, and the time that signing takes. -/
structure Answers where
  answer : (op : Op) → Ans op
  elapsed : ℕ

inductive Event (ι : Type) where
  | tick (elapsed : ℕ)
  | register (browser : ι) (body : RegistrationBody) (answers : Answers)
  | login (browser : ι) (email password : Value) (answers : Answers)
  | logout (browser : ι)

section System

variable {ι : Type} [DecidableEq ι] (case : CaseMapping) (production : Bool) (lib : TokenLibrary)

def World.store (w : World ι) (browser : ι) (cookie : StoredCookie) : World ι :=
  { w with jars := Function.update w.jars browser ((w.jars browser).store w.clock cookie) }

/-- The effects of a request of one browser. -/
def exec (browser : ι) (answers : Answers) : (op : Op) → World ι → Ans op × World ι
  | .sign claims, w => (lib.sign claims w.clock, w)
  | .currentTime, w => (w.clock + answers.elapsed, { w with clock := w.clock + answers.elapsed })
  | .cookie name token options, w => ((), w.store browser (storedCookie name token options))
  | op, w => (answers.answer op, w)

def step (w : World ι) : Event ι → World ι
  | .tick elapsed => { w with clock := w.clock + elapsed }
  | .register browser body answers =>
    ((registration case production body).run (exec lib browser answers) w).2
  | .login browser email password answers =>
    ((login production email password).run (exec lib browser answers) w).2
  | .logout browser => w.store browser (logout production w.clock)

def start : World ι := ⟨0, fun _ => []⟩

def worldAfter (run : List (Event ι)) : World ι := run.foldl (step case production lib) start

end System

/-- The user whose e-mail address and password a login has brought. -/
def credentials (answers : Answers) (email password : Value) : Option Claims :=
  match answers.answer (.findByEmail email) with
  | .ok (some user) =>
    match answers.answer (.compare password user.password) with
    | .ok true => some ⟨user.username, .json (.str user.email), user.id⟩
    | _ => none
  | _ => none

/-- The user that a registration has added. -/
def admission (case : CaseMapping) (answers : Answers) (body : RegistrationBody) : Option Claims :=
  match uname case body.username with
  | .ok username =>
    if usernameRegex username then
      match answers.answer (.findOne body.email username) with
      | .ok none =>
        match answers.answer (.hash body.password) with
        | .ok password =>
          match answers.answer (.insert ⟨username, body.email, password⟩) with
          | .ok id => some ⟨username, body.email, id⟩
          | .error _ => none
        | .error _ => none
      | _ => none
    else none
  | .error _ => none

/-- Which browser is signed in as whom, and since when. -/
structure SignedIn (ι : Type) where
  clock : ℕ
  sessions : ι → Option (Claims × ℕ)

section Spec

variable {ι : Type} [DecidableEq ι] (case : CaseMapping)

def SignedIn.signIn (a : SignedIn ι) (browser : ι) (answers : Answers) :
    Option Claims → SignedIn ι
  | some claims => ⟨a.clock + answers.elapsed,
      Function.update a.sessions browser (some (claims, a.clock))⟩
  | none => a

def SignedIn.step (a : SignedIn ι) : Event ι → SignedIn ι
  | .tick elapsed => { a with clock := a.clock + elapsed }
  | .register browser body answers => a.signIn browser answers (admission case answers body)
  | .login browser email password answers =>
    a.signIn browser answers (credentials answers email password)
  | .logout browser => { a with sessions := Function.update a.sessions browser none }

def signedInAfter (run : List (Event ι)) : SignedIn ι :=
  run.foldl (SignedIn.step case) ⟨0, fun _ => none⟩

end Spec

section Requests

variable {ι : Type} [DecidableEq ι] (case : CaseMapping) (production : Bool) (lib : TokenLibrary)

/-- The cookie of a session. -/
def sessionCookie (claims : Claims) (signedAt now : ℕ) : StoredCookie :=
  storedCookie "jwt" (lib.sign claims signedAt) (getCookieOptions production now)

def World.signIn (w : World ι) (browser : ι) (answers : Answers) : Option Claims → World ι
  | some claims => World.store { w with clock := w.clock + answers.elapsed } browser
      (sessionCookie production lib claims w.clock (w.clock + answers.elapsed))
  | none => w

theorem run_createSendToken (w : World ι) (browser : ι) (answers : Answers) (user : UserData) :
    (createSendToken production user).run (exec lib browser answers) w =
      (.ok (lib.sign ⟨user.username, user.email, user.id⟩ w.clock),
        w.signIn production lib browser answers (some ⟨user.username, user.email, user.id⟩)) := rfl

theorem step_login (w : World ι) (browser : ι) (email password : Value) (answers : Answers) :
    step case production lib w (.login browser email password answers) =
      w.signIn production lib browser answers (credentials answers email password) := by
  have hfind : (Program.attempt (perform (.findByEmail email))).run (exec lib browser answers) w =
      (answers.answer (.findByEmail email), w) := rfl
  simp only [step, login, orNext, credentials, Program.bind_eq, Program.run_tryCatch,
    Program.run_bind, hfind]
  match answers.answer (.findByEmail email) with
  | .error e => rfl
  | .ok none => rfl
  | .ok (some user) =>
    have hcompare : (Program.attempt (perform (.compare password user.password))).run
        (exec lib browser answers) w = (answers.answer (.compare password user.password), w) := rfl
    simp only [Program.resume_ok, Program.run_bind, hcompare]
    match answers.answer (.compare password user.password) with
    | .error e => rfl
    | .ok false => rfl
    | .ok true => rfl

/-- Publishing the event leaves the clock and the cookies alone. -/
theorem run_welcome (w : World ι) (browser : ι) (answers : Answers) (user : UserData) :
    (welcome production user).run (exec lib browser answers) w =
      (.ok (.json 200 "User registered successfully" (some user)),
        w.signIn production lib browser answers (some ⟨user.username, user.email, user.id⟩)) := by
  simp only [welcome, Program.bind_eq, Program.run_bind, run_createSendToken, Program.resume_ok]
  simp only [publishNotification, Program.attempt, perform, Program.call, Program.bind_eq,
    Program.bind_perform, Program.bind_ok, Program.tryCatch_perform, Program.run_perform, exec]
  cases answers.answer (.sendToQueue (registeredEvent user)) with
  | ok published => rfl
  | error e => rfl

theorem step_register (w : World ι) (browser : ι) (body : RegistrationBody) (answers : Answers) :
    step case production lib w (.register browser body answers) =
      w.signIn production lib browser answers (admission case answers body) := by
  simp only [step, registration, orNext, tryRegistration, sync, Program.bind_eq, admission]
  match uname case body.username with
  | .error e => rfl
  | .ok username =>
    simp only [Program.bind_ok]
    by_cases hregex : usernameRegex username = true
    · rw [if_pos hregex, if_neg (not_not_intro hregex)]
      have hfind : (Program.attempt (perform (.findOne body.email username))).run
          (exec lib browser answers) w = (answers.answer (.findOne body.email username), w) := rfl
      simp only [Program.run_tryCatch, Program.run_bind, hfind]
      match answers.answer (.findOne body.email username) with
      | .error e => rfl
      | .ok (some existing) =>
        simp only [Program.resume_ok]
        by_cases hemail : (Value.json (.str existing.email)).strictEq body.email = true
        · rw [if_pos hemail]
          rfl
        · rw [if_neg hemail]
          rfl
      | .ok none =>
        have hhash : (Program.attempt (perform (.hash body.password))).run
            (exec lib browser answers) w = (answers.answer (.hash body.password), w) := rfl
        simp only [Program.resume_ok, storeUser, Program.bind_eq, Program.run_bind, hhash]
        match answers.answer (.hash body.password) with
        | .error e => rfl
        | .ok password =>
          have hinsert : (Program.attempt (perform (.insert ⟨username, body.email, password⟩))).run
              (exec lib browser answers) w =
                (answers.answer (.insert ⟨username, body.email, password⟩), w) := rfl
          simp only [Program.resume_ok, save, Program.bind_eq, Program.run_bind, hinsert]
          match answers.answer (.insert ⟨username, body.email, password⟩) with
          | .error e => rfl
          | .ok id =>
            simp only [Program.resume_ok, Program.pure_eq, Program.run_done, run_welcome]
    · rw [if_neg hregex, if_pos hregex]
      rfl

end Requests

section Refinement

variable {ι : Type} [DecidableEq ι] {case : CaseMapping} {production : Bool} {lib : TokenLibrary}

/-- The jar of a browser holds nothing but the cookie of its session, which does not expire
before its token. -/
def Keeps (production : Bool) (lib : TokenLibrary) (session : Option (Claims × ℕ)) (jar : Jar) :
    Prop :=
  match session with
  | some (claims, signedAt) => ∃ now ≥ signedAt,
      jar = [sessionCookie production lib claims signedAt now]
  | none => jar = []

/-- The world is as the abstract level says. -/
structure Refines (production : Bool) (lib : TokenLibrary) (w : World ι) (a : SignedIn ι) :
    Prop where
  clock : w.clock = a.clock
  jars : ∀ browser, Keeps production lib (a.sessions browser) (w.jars browser)

theorem Keeps.cleared {session : Option (Claims × ℕ)} {jar : Jar}
    (h : Keeps production lib session jar) {cookie : StoredCookie}
    (hname : cookie.name = js "jwt") (hpath : cookie.path = "/") :
    jar.filter (fun old => ¬ (old.name = cookie.name ∧ old.path = cookie.path)) = [] := by
  rw [hname, hpath]
  cases session with
  | none =>
    obtain rfl : jar = [] := h
    rfl
  | some signed =>
    obtain ⟨now, -, rfl⟩ : ∃ now ≥ signed.2, jar = _ := h
    rfl

theorem sessionCookie_expires (claims : Claims) (signedAt now : ℕ) :
    (sessionCookie production lib claims signedAt now).expires =
      (now + 86400000) / 1000 * 1000 := rfl

/-- The cookie of a new session takes the place of the old one. -/
theorem store_session {session : Option (Claims × ℕ)} {jar : Jar}
    (h : Keeps production lib session jar) (claims : Claims) (signedAt elapsed : ℕ) :
    jar.store (signedAt + elapsed)
        (sessionCookie production lib claims signedAt (signedAt + elapsed)) =
      [sessionCookie production lib claims signedAt (signedAt + elapsed)] := by
  have hlive : signedAt + elapsed <
      (sessionCookie production lib claims signedAt (signedAt + elapsed)).expires := by
    rw [sessionCookie_expires]
    omega
  rw [Jar.store, h.cleared rfl rfl, if_pos hlive, List.nil_append]

/-- A logout leaves nothing. -/
theorem store_logout {session : Option (Claims × ℕ)} {jar : Jar}
    (h : Keeps production lib session jar) (now : ℕ) :
    jar.store now (logout production now) = [] := by
  have hexpires : (logout production now).expires = 0 := by
    simp [logout, clearCookie, storedCookie]
  have hgone : ¬ now < (logout production now).expires := by
    rw [hexpires]
    exact Nat.not_lt_zero now
  rw [Jar.store, h.cleared rfl rfl, if_neg hgone, List.nil_append]

theorem Refines.signIn {w : World ι} {a : SignedIn ι} (h : Refines production lib w a)
    (browser : ι) (answers : Answers) (claims : Option Claims) :
    Refines production lib (w.signIn production lib browser answers claims)
      (a.signIn browser answers claims) := by
  cases claims with
  | none => exact h
  | some claims =>
    constructor
    case clock => exact congrArg (· + answers.elapsed) h.clock
    case jars =>
      intro other
      simp only [World.signIn, World.store, SignedIn.signIn, ← h.clock]
      by_cases hother : other = browser
      · subst hother
        rw [Function.update_self, Function.update_self,
          store_session (h.jars other) claims w.clock answers.elapsed]
        exact ⟨_, Nat.le_add_right _ _, rfl⟩
      · rw [Function.update_of_ne hother, Function.update_of_ne hother]
        exact h.jars other

/-- One event on both levels. -/
theorem Refines.step {w : World ι} {a : SignedIn ι} (h : Refines production lib w a)
    (event : Event ι) :
    Refines production lib (Sessions.step case production lib w event) (a.step case event) := by
  cases event with
  | tick elapsed => exact ⟨congrArg (· + elapsed) h.clock, h.jars⟩
  | register browser body answers =>
    rw [step_register]
    exact h.signIn browser answers _
  | login browser email password answers =>
    rw [step_login]
    exact h.signIn browser answers _
  | logout browser =>
    refine ⟨h.clock, fun other => ?_⟩
    simp only [Sessions.step, World.store, SignedIn.step]
    by_cases hother : other = browser
    · subst hother
      rw [Function.update_self, Function.update_self]
      exact store_logout (h.jars other) w.clock
    · rw [Function.update_of_ne hother, Function.update_of_ne hother]
      exact h.jars other

theorem refines_run (run : List (Event ι)) :
    Refines production lib (worldAfter case production lib run) (signedInAfter case run) := by
  induction run using List.reverseRecOn with
  | nil => exact ⟨rfl, fun _ => rfl⟩
  | append_singleton run event ih =>
    rw [worldAfter, signedInAfter, List.foldl_append, List.foldl_append]
    exact ih.step event

end Refinement

inductive Entrance where
  | chatService | userService | notificationService | socketServer

/-- A request of a browser that has no token but its cookie. It may send other cookies before
and after. -/
structure Visit where
  entrance : Entrance
  https : Bool
  authorization : Option JsString
  authToken : Value
  before : List (Cookie UInt16)
  after : List (Cookie UInt16)
  no_bearer : (bearerToken authorization).truthy = false
  no_authToken : authToken.truthy = false
  others : ∀ c ∈ before ++ after, http.Proper c ∧ c.name ≠ js "jwt"

def Visit.cookies (visit : Visit) (now : ℕ) (jar : Jar) : List (Cookie UInt16) :=
  visit.before ++ jar.sent now visit.https ++ visit.after

/-- The `Cookie` header, which is left out when there are no cookies. -/
def Visit.header (visit : Visit) (now : ℕ) (jar : Jar) : Option JsString :=
  if (visit.cookies now jar).isEmpty then none else some (http.render (visit.cookies now jar))

def Visit.outcome (visit : Visit) (lib : TokenLibrary) (parser : CookieParser) (now : ℕ)
    (jar : Jar) : Outcome IUser :=
  let req : Request := ⟨visit.authorization, parser.parse (visit.header now jar)⟩
  match visit.entrance with
  | .chatService => ChatService.authMiddleware (lib.verify now) req
  | .userService => (UserService.authenticated (lib.verify now) req).map attached
  | .notificationService => NotificationService.authMiddleware (lib.verify now) req
  | .socketServer =>
    SocketServer.authMiddleware (lib.verify now) ⟨visit.authToken, visit.header now jar⟩

section Tokens

variable {verify : Verify} {req : Request}

theorem requestToken_of_cookie (h : (bearerToken req.authorization).truthy = false)
    {token : JsString} (hcookie : req.cookies.field "jwt" = .json (.str token))
    (hne : token ≠ []) : requestToken req = .json (.str token) := by
  simp [requestToken, h, hcookie, hne]

theorem requestToken_of_none (h : (bearerToken req.authorization).truthy = false)
    (hcookie : req.cookies.field "jwt" = .undefined) : (requestToken req).truthy = false := by
  simp [requestToken, h, hcookie]

theorem handshakeToken_of_cookie {handshake : Handshake} (h : handshake.authToken.truthy = false)
    {header token : JsString} (hheader : handshake.cookie = some header) (hne : header ≠ [])
    (hcookie : cookieToken header = some token) :
    handshakeToken handshake = .json (.str token) := by
  simp [handshakeToken, h, hheader, hne, hcookie]

theorem handshakeToken_of_none {handshake : Handshake} (h : handshake.authToken.truthy = false)
    (hcookie : ∀ header, handshake.cookie = some header → cookieToken header = none) :
    (handshakeToken handshake).truthy = false := by
  cases hheader : handshake.cookie with
  | none => simp [handshakeToken, h, hheader]
  | some header => simp [handshakeToken, h, hheader, hcookie header hheader]

end Tokens

/-- The visitor is not let in, for want of a valid token. -/
def Refused (outcome : Outcome IUser) : Prop :=
  ∃ message, outcome = .reject (.apiError 401 message) ∨ outcome = .reject (.failure message)

theorem token_proper {value : JsString} (h : value.all isTokenChar = true) :
    http.Proper ⟨js "jwt", value⟩ := by
  have hchars : ∀ u ∈ http.pair ⟨js "jwt", value⟩, u ≠ 0x3B ∧ isSpace u = false := by
    intro u hu
    have hname : (js "jwt=").all (fun u => u ≠ 0x3B ∧ isSpace u = false) = true := by decide
    rcases List.mem_append.mp (show u ∈ js "jwt=" ++ value from hu) with hu | hu
    · exact of_decide_eq_true (List.all_eq_true.mp hname u hu)
    · have hu := List.all_eq_true.mp h u hu
      simp only [isTokenChar, decide_eq_true_eq] at hu
      rcases hu with hhandle | rfl
      · refine ⟨?_, (AuthValidation.isHandleChar_ascii hhandle).2⟩
        rintro rfl
        exact absurd hhandle (by decide)
      · decide
  constructor
  case separator => exact fun hmem => (hchars _ hmem).1 rfl
  case equals => exact (by decide : (0x3D : UInt16) ∉ js "jwt")
  case name => exact (by decide : http.strip (js "jwt") = js "jwt")
  case strip => exact trim_eq_self fun u hu => (hchars u hu).2

namespace Visit

variable (visit : Visit) (lib : TokenLibrary) (parser : CookieParser) (now : ℕ) (jar : Jar)

/-- What is sent under the name of the session cookie. -/
def token : Option JsString :=
  ((visit.cookies now jar).find? fun c => c.name = js "jwt").map Cookie.value

/-- The cookies that a visit sends are as a server expects them. -/
def WellFormed : Prop :=
  (∀ c ∈ visit.cookies now jar, http.Proper c) ∧
    ∀ c ∈ visit.cookies now jar, c.name = js "jwt" → c.value.all isTokenChar = true

variable {visit lib parser now jar}

variable (parser) in
/-- The cookie parser and the Socket.IO server find the same token. -/
theorem parsed (h : visit.WellFormed now jar) :
    (parser.parse (visit.header now jar)).field "jwt" =
        ((visit.token now jar).map fun token => .json (.str token)).getD .undefined ∧
      ∀ header, visit.header now jar = some header →
        cookieToken header = visit.token now jar := by
  unfold header token
  split
  · rename_i hempty
    rw [List.isEmpty_iff.mp hempty, parser.parse_none]
    exact ⟨rfl, fun _ h => by cases h⟩
  · rename_i hne
    have hcookies : visit.cookies now jar ≠ [] := fun hnil => hne (hnil ▸ rfl)
    constructor
    · rw [parser.parse_render _ hcookies h.1 h.2, Option.map_map]
      rfl
    · rintro _ ⟨⟩
      rw [cookieToken_eq]
      exact Punctuation.find_render h.1 (by decide)

theorem refused_of_none (h : visit.WellFormed now jar) (htoken : visit.token now jar = none) :
    Refused (visit.outcome lib parser now jar) := by
  obtain ⟨hparsed, hread⟩ := parsed parser h
  rw [htoken] at hparsed hread
  have hrequest : (requestToken
      ⟨visit.authorization, parser.parse (visit.header now jar)⟩).truthy = false :=
    requestToken_of_none visit.no_bearer hparsed
  have hhandshake : (handshakeToken ⟨visit.authToken, visit.header now jar⟩).truthy = false :=
    handshakeToken_of_none visit.no_authToken hread
  cases hentrance : visit.entrance with
  | chatService =>
    refine ⟨"Authentication required", .inl ?_⟩
    simp [outcome, hentrance, ChatService.authMiddleware, hrequest]
  | userService =>
    refine ⟨"Authentication required. Please log in.", .inl ?_⟩
    simp [outcome, hentrance, UserService.authenticated, verified, hrequest, caught,
      Thrown.foreign, Outcome.map]
  | notificationService =>
    refine ⟨"Authentication required. Please log in.", .inl ?_⟩
    simp [outcome, hentrance, NotificationService.authMiddleware, verified, hrequest, caught,
      Thrown.foreign]
  | socketServer =>
    refine ⟨"Authentication required", .inr ?_⟩
    simp [outcome, hentrance, SocketServer.authMiddleware, hhandshake]

variable (lib parser) in
/-- With a token, every entrance asks the token library. -/
theorem outcome_of_some (h : visit.WellFormed now jar) {token : JsString}
    (htoken : visit.token now jar = some token) (hne : token ≠ []) :
    (∀ decoded, lib.verify now (.json (.str token)) = .ok decoded →
      visit.outcome lib parser now jar = .proceed (attached decoded)) ∧
    ∀ thrown, lib.verify now (.json (.str token)) = .error thrown →
      thrown.isJsonWebTokenError = true → Refused (visit.outcome lib parser now jar) := by
  obtain ⟨hparsed, hread⟩ := parsed parser h
  rw [htoken] at hparsed hread
  have hrequest : requestToken ⟨visit.authorization, parser.parse (visit.header now jar)⟩ =
      .json (.str token) := requestToken_of_cookie visit.no_bearer hparsed hne
  have hhandshake : handshakeToken ⟨visit.authToken, visit.header now jar⟩ =
      .json (.str token) := by
    cases hheader : visit.header now jar with
    | none =>
      have hempty : visit.cookies now jar = [] := by
        unfold header at hheader
        split at hheader
        · exact List.isEmpty_iff.mp ‹_›
        · cases hheader
      rw [Visit.token, hempty] at htoken
      cases htoken
    | some header =>
      refine handshakeToken_of_cookie visit.no_authToken rfl ?_ (hread header hheader)
      rintro rfl
      cases hread [] hheader
  have htruthy : (Value.json (.str token)).truthy = true := by simpa using hne
  refine ⟨fun decoded hdecoded => ?_, fun thrown hthrown hclass => ?_⟩
  · cases hentrance : visit.entrance <;>
      simp [outcome, hentrance, ChatService.authMiddleware, UserService.authenticated, verified,
        NotificationService.authMiddleware, SocketServer.authMiddleware, hrequest, hhandshake,
        htruthy, hdecoded, Outcome.map]
  · cases hentrance : visit.entrance with
    | chatService =>
      refine ⟨"Invalid or expired token", .inl ?_⟩
      simp [outcome, hentrance, ChatService.authMiddleware, hrequest, hne, hthrown]
    | userService =>
      refine ⟨"Invalid token. Please log in again.", .inl ?_⟩
      simp [outcome, hentrance, UserService.authenticated, verified, hrequest, hne, hthrown,
        caught, hclass, Outcome.map]
    | notificationService =>
      refine ⟨"Invalid token. Please log in again.", .inl ?_⟩
      simp [outcome, hentrance, NotificationService.authMiddleware, verified, hrequest, hne,
        hthrown, caught, hclass]
    | socketServer =>
      refine ⟨"Invalid token", .inr ?_⟩
      simp [outcome, hentrance, SocketServer.authMiddleware, hhandshake, hne, hthrown]

/-- The cookies that a visit has besides do not matter. -/
theorem token_eq (now : ℕ) (jar : Jar) : visit.token now jar =
    ((jar.sent now visit.https).find? fun c => c.name = js "jwt").map Cookie.value := by
  have hothers : ∀ cs ⊆ visit.before ++ visit.after,
      cs.find? (fun c => c.name = js "jwt") = none := by
    intro cs hcs
    rw [List.find?_eq_none]
    intro c hc hname
    exact (visit.others c (hcs hc)).2 (of_decide_eq_true hname)
  rw [token, cookies, List.find?_append, List.find?_append,
    hothers _ (List.subset_append_left _ _), hothers _ (List.subset_append_right _ _)]
  simp

theorem wellFormed_of_keeps {production : Bool} {session : Option (Claims × ℕ)}
    (h : Keeps production lib session jar) : visit.WellFormed now jar := by
  have hjar : ∀ c ∈ jar.sent now visit.https,
      http.Proper c ∧ c.value.all isTokenChar = true := by
    intro c hc
    obtain ⟨stored, hstored, rfl⟩ := List.mem_map.mp hc
    cases session with
    | none =>
      obtain rfl : jar = [] := h
      cases hstored
    | some signed =>
      obtain ⟨made, -, rfl⟩ : ∃ made ≥ signed.2, jar = _ := h
      obtain rfl := List.mem_singleton.mp (List.mem_of_mem_filter hstored)
      have hchars := lib.sign_chars signed.1 signed.2
      exact ⟨token_proper hchars, hchars⟩
  have hall : ∀ c ∈ visit.cookies now jar, c ∈ visit.before ++ visit.after ∨
      c ∈ jar.sent now visit.https := by
    intro c hc
    simp only [cookies, List.mem_append] at hc ⊢
    tauto
  constructor
  · intro c hc
    rcases hall c hc with hother | hsent
    · exact (visit.others c hother).1
    · exact (hjar c hsent).1
  · intro c hc hname
    rcases hall c hc with hother | hsent
    · exact absurd hname (visit.others c hother).2
    · exact (hjar c hsent).2

end Visit

/-- What a visit has to come to: it is the user's who is signed in, for one day and over `https`
in production, and nobody's otherwise. -/
def Expected {ι : Type} (production : Bool) (a : SignedIn ι) (browser : ι) (https : Bool)
    (outcome : Outcome IUser) : Prop :=
  match a.sessions browser with
  | some (claims, signedAt) =>
    if a.clock / 1000 < expiry signedAt ∧ (production → https) then
      ∃ user, outcome = .proceed user ∧ Carries claims user
    else Refused outcome
  | none => Refused outcome

theorem token_session {production : Bool} {lib : TokenLibrary} (visit : Visit) (now : ℕ)
    {jar : Jar} {claims : Claims} {signedAt made : ℕ}
    (hjar : jar = [sessionCookie production lib claims signedAt made]) :
    visit.token now jar =
      if now < (made + 86400000) / 1000 * 1000 ∧ (production → visit.https) then
        some (lib.sign claims signedAt)
      else none := by
  rw [Visit.token_eq, hjar, Jar.sent, List.filter_cons, sessionCookie_expires]
  split_ifs with hsent hcondition hcondition
  · rfl
  · exact absurd (of_decide_eq_true hsent) hcondition
  · exact absurd (decide_eq_true hcondition) hsent
  · rfl

/-- After any requests of any browsers, each visit at any entrance comes to what it has to. -/
theorem visits_recognised {ι : Type} [DecidableEq ι] (case : CaseMapping) (production : Bool)
    (lib : TokenLibrary) (parser : CookieParser) (run : List (Event ι)) (browser : ι)
    (visit : Visit) :
    let world := worldAfter case production lib run
    Expected production (signedInAfter case run) browser visit.https
      (visit.outcome lib parser world.clock (world.jars browser)) := by
  intro world
  have h : Refines production lib world (signedInAfter case run) := refines_run run
  have hkeeps := h.jars browser
  have hwell : visit.WellFormed world.clock (world.jars browser) :=
    Visit.wellFormed_of_keeps hkeeps
  unfold Expected
  rw [← h.clock]
  cases hsession : (signedInAfter case run).sessions browser with
  | none =>
    rw [hsession] at hkeeps
    apply Visit.refused_of_none hwell
    rw [Visit.token_eq, show world.jars browser = [] from hkeeps]
    rfl
  | some signed =>
    obtain ⟨claims, signedAt⟩ := signed
    rw [hsession] at hkeeps
    obtain ⟨made, hmade, hjar⟩ : ∃ made ≥ signedAt, world.jars browser =
      [sessionCookie production lib claims signedAt made] := hkeeps
    have htoken := token_session visit world.clock hjar
    dsimp only
    split_ifs with hvalid
    · have hsent : world.clock < (made + 86400000) / 1000 * 1000 := by
        have hclock := hvalid.1
        simp only [expiry] at hclock
        omega
      rw [if_pos ⟨hsent, hvalid.2⟩] at htoken
      obtain ⟨decoded, hdecoded, hcarries⟩ := lib.verify_sign claims signedAt _ hvalid.1
      have hasked := Visit.outcome_of_some lib parser hwell htoken (lib.sign_ne _ _)
      exact ⟨_, hasked.1 decoded hdecoded, hcarries⟩
    · by_cases hsent : world.clock < (made + 86400000) / 1000 * 1000 ∧ (production → visit.https)
      · rw [if_pos hsent] at htoken
        have hexpired : expiry signedAt ≤ world.clock / 1000 :=
          Nat.le_of_not_lt fun hclock => hvalid ⟨hclock, hsent.2⟩
        obtain ⟨thrown, hthrown, hclass⟩ := lib.verify_expired claims signedAt _ hexpired
        have hasked := Visit.outcome_of_some lib parser hwell htoken (lib.sign_ne _ _)
        exact hasked.2 thrown hthrown (thrown.extends_jsonWebTokenError hclass)
      · rw [if_neg hsent] at htoken
        exact Visit.refused_of_none hwell htoken

/-- Every unit as four hexadecimal digits. -/
def hex (s : JsString) : JsString :=
  s.flatMap fun u => [JSON.hexText (u.toNat / 4096), JSON.hexText (u.toNat / 256 % 16),
    JSON.hexText (u.toNat / 16 % 16), JSON.hexText (u.toNat % 16)]

def unhex : JsString → Option JsString
  | a :: b :: c :: d :: rest => (JSON.unicodeEscape a b c d).bind fun u => (unhex rest).map (u :: ·)
  | [] => some []
  | _ => none

theorem unhex_hex (s : JsString) : unhex (hex s) = some s := by
  induction s with
  | nil => rfl
  | cons u s ih =>
    have hstep : unhex (hex (u :: s)) =
        (JSON.unicodeEscape (JSON.hexText (u.toNat / 4096)) (JSON.hexText (u.toNat / 256 % 16))
          (JSON.hexText (u.toNat / 16 % 16)) (JSON.hexText (u.toNat % 16))).bind
            fun u => (unhex (hex s)).map (u :: ·) := rfl
    rw [hstep, JSON.unicodeEscape_hexText, ih]
    rfl

theorem hex_chars (s : JsString) : (hex s).all isTokenChar = true := by
  have hdigit : ∀ d < 16, isTokenChar (JSON.hexText d) = true := by decide
  rw [List.all_eq_true]
  intro c hc
  obtain ⟨u, -, hu⟩ := List.mem_flatMap.mp hc
  have hlt := u.toNat_lt
  simp only [List.mem_cons, List.not_mem_nil, or_false] at hu
  rcases hu with rfl | rfl | rfl | rfl
  · exact hdigit _ (by omega)
  · exact hdigit _ (by omega)
  · exact hdigit _ (by omega)
  · exact hdigit _ (by omega)

/-- The claims as they are signed. -/
def claimsText (claims : Claims) : JsString :=
  JSON.stringify (.obj ((js "username", .str claims.username) :: member "email" claims.email ++
    [(js "id", .str claims.id)]))

theorem claimsText_parses (claims : Claims) : ∃ fields,
    JSON.parse (claimsText claims) = .ok (.obj fields) ∧
      Carries claims (attached (.object fields)) := by
  obtain ⟨username, email, id⟩ := claims
  have hstr : ∀ s, JSON.Reads (JSON.stringify (.str s)) (.str s) := JSON.reads_quote
  cases email with
  | json v =>
    obtain ⟨w, hw⟩ := JSON.stringify_reads v
    have hmembers : JSON.ReadsMembers
        ((js "username", .str username) :: member "email" (.json v) ++ [(js "id", .str id)])
        [(js "username", .str username), (js "email", w), (js "id", .str id)] :=
      .cons ⟨rfl, hstr _⟩ (.cons ⟨rfl, hw⟩ (.cons ⟨rfl, hstr _⟩ .nil))
    refine ⟨_, (JSON.reads_object hmembers).parse, ⟨rfl, rfl, ?_⟩⟩
    rw [carried, hw.parse]
    rfl
  | undefined | function =>
    have hmembers : JSON.ReadsMembers [(js "username", .str username), (js "id", .str id)]
        [(js "username", .str username), (js "id", .str id)] :=
      .cons ⟨rfl, hstr _⟩ (.cons ⟨rfl, hstr _⟩ .nil)
    exact ⟨_, (JSON.reads_object hmembers).parse, ⟨rfl, rfl, rfl⟩⟩

/-- The second of the signature, counted in points, and the claims. -/
def plainSign (claims : Claims) (t : ℕ) : JsString :=
  List.replicate (t / 1000) 0x2E ++ 0x2D :: hex (claimsText claims)

def invalid : Thrown := ⟨.failure "invalid token", true, false, fun h => by cases h⟩

def expired : Thrown := ⟨.failure "jwt expired", true, true, fun _ => rfl⟩

def plainVerify (now : ℕ) : Verify
  | .json (.str token) =>
    let second := (token.takeWhile fun u => u = 0x2E).length
    match (unhex (token.drop (second + 1))).map JSON.parse with
    | some (.ok (.obj fields)) =>
      if now / 1000 < second + 86400 then .ok (.object fields) else .error expired
    | _ => .error invalid
  | _ => .error invalid

theorem plainVerify_sign (claims : Claims) (t now : ℕ) : ∃ fields,
    Carries claims (attached (.object fields)) ∧
      plainVerify now (.json (.str (plainSign claims t))) =
        if now / 1000 < expiry t then .ok (.object fields) else .error expired := by
  obtain ⟨fields, hparse, hcarries⟩ := claimsText_parses claims
  refine ⟨fields, hcarries, ?_⟩
  have hsecond : ((plainSign claims t).takeWhile fun u => u = 0x2E).length = t / 1000 := by
    rw [plainSign, List.takeWhile_append_of_pos (by simp +contextual)]
    simp
  have hrest : (plainSign claims t).drop (t / 1000 + 1) = hex (claimsText claims) := by
    rw [plainSign, List.drop_append]
    simp
  simp only [plainVerify, hsecond, hrest, unhex_hex, Option.map_some, hparse, expiry]
  rfl

def plainTokens : TokenLibrary where
  sign := plainSign
  verify := plainVerify
  sign_ne claims t := by simp [plainSign]
  sign_chars claims t := by
    rw [plainSign, List.all_append, List.all_cons, hex_chars]
    simp [isTokenChar, isHandleChar]
  verify_sign claims t now hnow := by
    obtain ⟨fields, hcarries, hverify⟩ := plainVerify_sign claims t now
    rw [if_pos hnow] at hverify
    exact ⟨_, hverify, hcarries⟩
  verify_expired claims t now hnow := by
    obtain ⟨fields, -, hverify⟩ := plainVerify_sign claims t now
    rw [if_neg (Nat.not_lt.mpr hnow)] at hverify
    exact ⟨_, hverify, rfl⟩

/-- An object with the first cookie of the session's name. -/
def plainParser : CookieParser where
  parse header := .json (.obj ((header.bind fun header => http.find header (js "jwt")).toList.map
    fun value => (js "jwt", .str value)))
  parse_none := rfl
  parse_render cookies _ hproper _ := by
    rw [Option.bind_some, Punctuation.find_render hproper (by decide)]
    cases cookies.find? fun c => c.name = js "jwt" with
    | none => rfl
    | some c => rfl

/-- A browser on its way to the chat service, with another cookie. -/
def someVisit : Visit where
  entrance := .chatService
  https := true
  authorization := none
  authToken := .undefined
  before := [⟨js "theme", js "dark"⟩]
  after := []
  no_bearer := rfl
  no_authToken := rfl
  others c hc := by
    obtain rfl := List.mem_singleton.mp hc
    exact ⟨⟨by decide, by decide, by decide, by decide⟩, by decide⟩

/-- A database with one user, whose password any password is. -/
def someAnswers : Answers where
  answer
    | .findOne _ _ => .ok none
    | .findByEmail _ => .ok (some ⟨js "u1", js "alice", js "a@example.com", js "hash", 0, 0⟩)
    | .hash _ => .ok []
    | .compare _ _ => .ok true
    | .insert _ => .ok (js "u2")
    | .sign _ => []
    | .currentTime => 0
    | .cookie _ _ _ => ()
    | .sendToQueue _ => .ok ()
  elapsed := 5

/-- The first browser signs in and is recognised an hour later, the second is not. -/
theorem visits_recognised_alice :
    let run : List (Event Bool) :=
      [.login false (.json (.str (js "a@example.com"))) (.json (.str (js "pw"))) someAnswers,
        .tick 3600000]
    let world := worldAfter asciiMapping true plainTokens run
    (∃ user, someVisit.outcome plainTokens plainParser world.clock (world.jars false) =
        .proceed user ∧ user.id = .json (.str (js "u1"))) ∧
      Refused (someVisit.outcome plainTokens plainParser world.clock (world.jars true)) := by
  intro run world
  have hfirst := visits_recognised asciiMapping true plainTokens plainParser run false someVisit
  have hsecond := visits_recognised asciiMapping true plainTokens plainParser run true someVisit
  have hsession : (signedInAfter asciiMapping run).sessions false =
      some (⟨js "alice", .json (.str (js "a@example.com")), js "u1"⟩, 0) := rfl
  have hvalid : (signedInAfter asciiMapping run).clock / 1000 < expiry 0 ∧
      (True → someVisit.https = true) := ⟨by decide, fun _ => rfl⟩
  simp only [Expected, hsession] at hfirst
  rw [if_pos hvalid] at hfirst
  obtain ⟨user, houtcome, hcarries⟩ := hfirst
  exact ⟨⟨user, houtcome, hcarries.id⟩, hsecond⟩

end ChatMicroservices.Sessions

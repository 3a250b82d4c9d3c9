import ChatMicroservices.EmailTemplates
import ChatMicroservices.PrekeyValidation

/-!
# Validation of `POST /register` and `POST /login`

The chains of validators in front of the controller. A sanitizer replaces the field in the body
by a text, or by an array of texts when the field is an array; a check looks at every text of a
field.
-/

namespace ChatMicroservices.AuthValidation
open JavaScriptValues JavaScriptOperators PrekeyDatabase PrekeyValidation
open EmailTemplates (toText)

/-- `toString` of the validation library: the prototype's when the own one is no function, but
an own one that is falsy is called in vain. -/
def objectText (fields : List (JsString × Json)) : Except JsError JsString :=
  let own := (lookup (js "toString") fields).getD (.bool true)
  if (Value.json own).truthy then .ok (js "[object Object]") else .error conversionError

/-- The text of a value inside an array. -/
def elementText : Json → Except JsError JsString
  | .null => .ok []
  | .obj fields => objectText fields
  | v => toText v

/-- The text of a value; an array stands for its first element. -/
def valueText : Json → Except JsError JsString
  | .arr (x :: _) => elementText x
  | v => elementText v

/-- The texts that sanitizers and checks of a field look at. -/
def fieldTexts : Value → Except JsError (List JsString)
  | .json (.arr xs) => xs.mapM valueText
  | .json v => (valueText v).map ([·])
  | .undefined | .function => .ok [[]]

/-- Replace every text of a field. -/
def sanitize (f : JsString → Json) (v : Value) : Except JsError Value := do
  let texts ← fieldTexts v
  match v with
  | .json (.arr _) => .ok (.json (.arr (texts.map f)))
  | _ => .ok (.json (f (texts.headD [])))

/-- One check of a chain: an error for every text that fails it. -/
def check (field message : String) (valid : JsString → Bool) (v : Value) :
    Except JsError (List FieldError) := do
  let texts ← fieldTexts v
  .ok ((texts.filter fun s => ¬ valid s).map fun _ => ⟨field, message⟩)

def notEmpty (s : JsString) : Bool := s ≠ []

def isLength (min max : ℕ) (s : JsString) : Bool :=
  min ≤ lengthInCharacters s ∧ lengthInCharacters s ≤ max

def isLowerCase (u : UInt16) : Bool := 0x61 ≤ u ∧ u ≤ 0x7A

def isUpperCase (u : UInt16) : Bool := 0x41 ≤ u ∧ u ≤ 0x5A

/-- `[A-Za-z0-9_-]` -/
def isHandleChar (u : UInt16) : Bool :=
  isUpperCase u ∨ isLowerCase u ∨ JSON.isDigit u ∨ u = 0x5F ∨ u = 0x2D

/-- `/^[A-Za-z0-9_-]+$/` -/
def isHandle (s : JsString) : Bool := s ≠ [] ∧ s.all isHandleChar

/-- `[@$!%*?&]` -/
def isSpecial (u : UInt16) : Bool := u ∈ js "@$!%*?&"

/-- The text up to the first line terminator, which `.` does not match. -/
def firstLine (s : JsString) : JsString :=
  s.takeWhile fun u => ¬ (u = 0x0A ∨ u = 0x0D ∨ u = 0x2028 ∨ u = 0x2029)

/-- `/^(?=.*[a-z])(?=.*[A-Z])(?=.*\d)(?=.*[@$!%*?&])[A-Za-z\d@$!%*?&]/` -/
def isStrong (s : JsString) : Bool :=
  (firstLine s).any isLowerCase ∧ (firstLine s).any isUpperCase ∧
    (firstLine s).any JSON.isDigit ∧ (firstLine s).any isSpecial ∧
    s.head?.any fun u => isUpperCase u ∨ isLowerCase u ∨ JSON.isDigit u ∨ isSpecial u

/-- `isEmail` and `normalizeEmail` of the validation library, the latter `none` for `false`. -/
structure EmailRules where
  isEmail : JsString → Bool
  normalizeEmail : JsString → Option JsString

/-- The fields of the body, as the sanitizers leave them. -/
structure RegistrationBody where
  username : Value
  email : Value
  password : Value
  deriving DecidableEq

def trimField : Value → Except JsError Value := sanitize fun s => .str (trim s)

def normalizeField (rules : EmailRules) : Value → Except JsError Value :=
  sanitize fun s => ((rules.normalizeEmail s).map Json.str).getD (.bool false)

def handleMessage : String :=
  "Username must contain only letters, numbers, underscores (_) or hyphens (-); no spaces"

def strongMessage : String :=
  "Password must contain at least one uppercase letter, one lowercase letter, one number, " ++
    "and one special character (@$!%*?&)"

def usernameChain (username : Value) : Except JsError (Value × List FieldError) := do
  let username ← trimField username
  let required ← check "username" "Username is required" notEmpty username
  let length ← check "username" "Username must be between 3 and 30 characters" (isLength 3 30)
    username
  let handle ← check "username" handleMessage isHandle username
  .ok (username, required ++ length ++ handle)

def emailChain (rules : EmailRules) (email : Value) :
    Except JsError (Value × List FieldError) := do
  let email ← trimField email
  let required ← check "email" "Email is required" notEmpty email
  let valid ← check "email" "Must be a valid email address" rules.isEmail email
  let email ← normalizeField rules email
  let length ← check "email" "Email must not exceed 255 characters" (isLength 0 255) email
  .ok (email, required ++ valid ++ length)

def passwordChain (password : Value) : Except JsError (Value × List FieldError) := do
  let required ← check "password" "Password is required" notEmpty password
  let length ← check "password" "Password must be between 8 and 128 characters"
    (isLength 8 128) password
  let strong ← check "password" strongMessage isStrong password
  .ok (password, required ++ length ++ strong)

/-- The three chains on a body, and what they found. -/
def registrationValidation (rules : EmailRules) (body : Value) :
    Except JsError (RegistrationBody × List FieldError) := do
  let (username, usernameErrors) ← usernameChain (body.field "username")
  let (email, emailErrors) ← emailChain rules (body.field "email")
  let (password, passwordErrors) ← passwordChain (body.field "password")
  .ok (⟨username, email, password⟩, usernameErrors ++ emailErrors ++ passwordErrors)

/-- A body that `validateRequest` lets through to the controller. -/
structure ValidBody (rules : EmailRules) extends RegistrationBody where
  raw : Value
  valid : registrationValidation rules raw = .ok (toRegistrationBody, [])

/-- The fields of the body of a login. -/
structure LoginBody where
  email : Value
  password : Value

def loginEmailChain (rules : EmailRules) (email : Value) :
    Except JsError (Value × List FieldError) := do
  let email ← trimField email
  let required ← check "email" "Email is required" notEmpty email
  let valid ← check "email" "Must be a valid email address" rules.isEmail email
  let email ← normalizeField rules email
  .ok (email, required ++ valid)

def loginPasswordChain (password : Value) : Except JsError (Value × List FieldError) := do
  let required ← check "password" "Password is required" notEmpty password
  .ok (password, required)

def loginValidation (rules : EmailRules) (body : Value) :
    Except JsError (LoginBody × List FieldError) := do
  let (email, emailErrors) ← loginEmailChain rules (body.field "email")
  let (password, passwordErrors) ← loginPasswordChain (body.field "password")
  .ok (⟨email, password⟩, emailErrors ++ passwordErrors)

/-- The characters of a handle are letters, digits and dashes of ASCII. -/
theorem isHandleChar_ascii {u : UInt16} (h : isHandleChar u = true) :
    u < 0x80 ∧ isSpace u = false := by
  simp only [isHandleChar, isUpperCase, isLowerCase, JSON.isDigit, decide_eq_true_eq,
    UInt16.le_iff_toNat_le, ← UInt16.toNat_inj, Bool.or_eq_true, Bool.decide_or] at h
  simp only [isSpace, UInt16.lt_iff_toNat_lt, UInt16.le_iff_toNat_le, ← UInt16.toNat_inj,
    decide_eq_false_iff_not]
  simp at h ⊢
  omega

/-- A check that finds nothing in a text has accepted it. -/
theorem valid_of_check {field message : String} {valid : JsString → Bool} {s : JsString}
    (h : check field message valid (.json (.str s)) = .ok []) : valid s = true := by
  have hnone := List.map_eq_nil_iff.mp (Except.ok.inj h)
  simpa using List.filter_eq_nil_iff.mp hnone s List.mem_cons_self

/-- A chain that finds nothing has accepted the text that it leaves. -/
theorem usernameChain_ok {v : Value} {s : JsString}
    (h : usernameChain v = .ok (.json (.str s), [])) :
    isHandle s = true ∧ isLength 3 30 s = true := by
  obtain ⟨u, -, h⟩ := ok_of_bind h
  obtain ⟨required, -, h⟩ := ok_of_bind h
  obtain ⟨length, hlength, h⟩ := ok_of_bind h
  obtain ⟨handle, hhandle, h⟩ := ok_of_bind h
  obtain ⟨rfl, herrors⟩ := Prod.mk.inj (Except.ok.inj h)
  obtain ⟨hleft, rfl⟩ := List.append_eq_nil_iff.mp herrors
  obtain ⟨-, rfl⟩ := List.append_eq_nil_iff.mp hleft
  exact ⟨valid_of_check hhandle, valid_of_check hlength⟩

/-- A body without errors passed the chain of its username. -/
theorem ValidBody.username_ok {rules : EmailRules} (b : ValidBody rules) :
    usernameChain (b.raw.field "username") = .ok (b.username, []) := by
  obtain ⟨⟨username, usernameErrors⟩, hu, h⟩ := ok_of_bind b.valid
  obtain ⟨⟨email, emailErrors⟩, -, h⟩ := ok_of_bind h
  obtain ⟨⟨password, passwordErrors⟩, -, h⟩ := ok_of_bind h
  obtain ⟨hbody, herrors⟩ := Prod.mk.inj (Except.ok.inj h)
  obtain ⟨hleft, -⟩ := List.append_eq_nil_iff.mp herrors
  obtain ⟨rfl, -⟩ := List.append_eq_nil_iff.mp hleft
  rw [hu, ← hbody]

theorem ValidBody.email_ok {rules : EmailRules} (b : ValidBody rules) :
    emailChain rules (b.raw.field "email") = .ok (b.email, []) := by
  obtain ⟨⟨username, usernameErrors⟩, -, h⟩ := ok_of_bind b.valid
  obtain ⟨⟨email, emailErrors⟩, he, h⟩ := ok_of_bind h
  obtain ⟨⟨password, passwordErrors⟩, -, h⟩ := ok_of_bind h
  obtain ⟨hbody, herrors⟩ := Prod.mk.inj (Except.ok.inj h)
  obtain ⟨hleft, -⟩ := List.append_eq_nil_iff.mp herrors
  obtain ⟨-, rfl⟩ := List.append_eq_nil_iff.mp hleft
  rw [he, ← hbody]

/-- The chain of a login accepts what that of a registration does, and leaves the same. -/
theorem loginEmailChain_ok {rules : EmailRules} {v email : Value}
    (h : emailChain rules v = .ok (email, [])) : loginEmailChain rules v = .ok (email, []) := by
  obtain ⟨trimmed, htrimmed, h⟩ := ok_of_bind h
  obtain ⟨required, hrequired, h⟩ := ok_of_bind h
  obtain ⟨valid, hvalid, h⟩ := ok_of_bind h
  obtain ⟨normalized, hnormalized, h⟩ := ok_of_bind h
  obtain ⟨length, -, h⟩ := ok_of_bind h
  obtain ⟨rfl, herrors⟩ := Prod.mk.inj (Except.ok.inj h)
  obtain ⟨hleft, -⟩ := List.append_eq_nil_iff.mp herrors
  simp only [loginEmailChain, htrimmed, bind, Except.bind, hrequired, hvalid, hnormalized, hleft]

/-- `registrationValidation` accepts the password. -/
def AcceptsPassword (password : JsString) : Prop :=
  passwordChain (.json (.str password)) = .ok (.json (.str password), [])

theorem loginPasswordChain_ok {password : JsString} (h : AcceptsPassword password) :
    loginPasswordChain (.json (.str password)) = .ok (.json (.str password), []) := by
  obtain ⟨required, hrequired, h⟩ := ok_of_bind h
  obtain ⟨length, -, h⟩ := ok_of_bind h
  obtain ⟨strong, -, h⟩ := ok_of_bind h
  obtain ⟨-, herrors⟩ := Prod.mk.inj (Except.ok.inj h)
  obtain ⟨hleft, -⟩ := List.append_eq_nil_iff.mp herrors
  obtain ⟨rfl, -⟩ := List.append_eq_nil_iff.mp hleft
  simp only [loginPasswordChain, bind, Except.bind, hrequired]

/-- The password of a valid body is accepted. -/
theorem ValidBody.acceptsPassword {rules : EmailRules} (b : ValidBody rules) {password : JsString}
    (h : b.password = .json (.str password)) : AcceptsPassword password := by
  obtain ⟨⟨username, usernameErrors⟩, -, hvalid⟩ := ok_of_bind b.valid
  obtain ⟨⟨email, emailErrors⟩, -, hvalid⟩ := ok_of_bind hvalid
  obtain ⟨⟨found, passwordErrors⟩, hp, hvalid⟩ := ok_of_bind hvalid
  obtain ⟨hbody, herrors⟩ := Prod.mk.inj (Except.ok.inj hvalid)
  obtain ⟨-, rfl⟩ := List.append_eq_nil_iff.mp herrors
  obtain rfl : found = .json (.str password) := (congrArg RegistrationBody.password hbody).trans h
  -- The chain leaves the field as it is.
  have hraw : b.raw.field "password" = .json (.str password) := by
    obtain ⟨required, -, hp⟩ := ok_of_bind hp
    obtain ⟨length, -, hp⟩ := ok_of_bind hp
    obtain ⟨strong, -, hp⟩ := ok_of_bind hp
    exact (Prod.mk.inj (Except.ok.inj hp)).1
  rwa [hraw] at hp

end ChatMicroservices.AuthValidation

import ChatMicroservices.RegistrationRaces
import ChatMicroservices.SequentialPrograms

/-!
# Login with the registered password

The validation accepts passwords of up to 128 characters, but the password library looks at the
first 72 bytes of a password only. A password that begins with the same bytes as the registered
one logs in as well.
-/

namespace ChatMicroservices.PasswordLogin
open JavaScriptValues EffectPrograms ConcurrentPrograms SequentialPrograms UsersTable
  AuthValidation AuthController RegistrationRaces

/-- The byte of a continuation, with the six bits above `shift`. -/
def continuation (point shift : ℕ) : UInt8 := UInt8.ofNat (0x80 + point / shift % 0x40)

def pointBytes (point : ℕ) : List UInt8 :=
  if point < 0x80 then [UInt8.ofNat point]
  else if point < 0x800 then [UInt8.ofNat (0xC0 + point / 0x40), continuation point 1]
  else if point < 0x10000 then
    [UInt8.ofNat (0xE0 + point / 0x1000), continuation point 0x40, continuation point 1]
  else
    [UInt8.ofNat (0xF0 + point / 0x40000), continuation point 0x1000, continuation point 0x40,
      continuation point 1]

/-- The bytes of a text. A lone surrogate has a code point of its own. -/
def utf8 : JsString → List UInt8
  | [] => []
  | [u] => pointBytes u.toNat
  | u :: v :: rest =>
    if (0xD800 ≤ u ∧ u ≤ 0xDBFF) ∧ 0xDC00 ≤ v ∧ v ≤ 0xDFFF then
      pointBytes (0x10000 + (u.toNat - 0xD800) * 0x400 + (v.toNat - 0xDC00)) ++ utf8 rest
    else pointBytes u.toNat ++ utf8 (v :: rest)

/-- What the library looks at. -/
def significant (password : JsString) : List UInt8 := (utf8 password).take 72

/-- `compare` accepts the passwords with the significant bytes of the one that was hashed. -/
def ComparesSignificant (lib : Libraries) : Prop :=
  ∀ salt password hashed other, lib.hash salt (.json (.str password)) = .ok hashed →
    lib.compare (.json (.str other)) hashed =
      .ok (decide (significant other = significant password))

section Registration

variable {ι : Type} [DecidableEq ι] {lib : Libraries} {i : ι}

/-- Every row in the journal is in the table. -/
def Recorded (s : Database ι) : Prop := ∀ entry ∈ s.journal, entry.2 ∈ s.users.rows

omit [DecidableEq ι] in
theorem Recorded.append {s s' : Database ι} (h : Recorded s) {u : User}
    (hrows : s'.users.rows = s.users.rows ++ [u])
    (hjournal : s'.journal = s.journal ++ [(i, u)]) : Recorded s' := by
  intro entry hentry
  rw [hjournal] at hentry
  rw [hrows, List.mem_append]
  rcases List.mem_append.mp hentry with hentry | hentry
  · exact .inl (h entry hentry)
  · obtain rfl := List.mem_singleton.mp hentry
    exact .inr List.mem_cons_self

/-- The row has the address of the request and a hash of its password. -/
def StoredFor (lib : Libraries) (email password : Value) (u : User) : Prop :=
  u.email = lib.parameter email ∧ ∃ salt, lib.hash salt password = .ok u.password

/-- The request has added such a row. -/
def Added (lib : Libraries) (i : ι) (email password : Value) (s : Database ι) : Prop :=
  ∃ u ∈ s.addedBy i, StoredFor lib email password u

/-- A request with an answer of its own has added its row. -/
def Registers (lib : Libraries) (i : ι) (email password : Value)
    (r : Except JsError HttpResult) (s : Database ι) : Prop :=
  ∀ status message data, r = .ok (.json status message data) → Added lib i email password s

theorem safe_hash (password : Value) (s : Database ι) :
    Safe (exec lib) Anything (appending Recorded) i
      (fun r _ => ∀ hashed, r = .ok hashed → ∃ salt, lib.hash salt password = .ok hashed)
      (Program.attempt (perform (.hash password))) s := by
  intro u _ hu _ c a v hexec
  obtain ⟨rfl, rfl⟩ := Prod.mk.inj (Option.some.inj hexec)
  exact ⟨hu, fun _ _ => rfl, fun _ _ _ hashed h => ⟨c.salt, h⟩⟩

theorem safe_save_row (username : JsString) (email : Value) (hashed : JsString)
    (s : Database ι) :
    Safe (exec lib) Anything (appending Recorded) i
      (fun r s => ∀ user, r = .ok user →
        ∃ u ∈ s.addedBy i, u.email = lib.parameter email ∧ u.password = hashed)
      (save ⟨username, email, hashed⟩) s := by
  intro u _ hu _ c a v hexec
  have hinsert : insert lib i c ⟨username, email, hashed⟩ u = (a, v) := Option.some.inj hexec
  rcases insert_cases lib i c ⟨username, email, hashed⟩ u with ⟨e, h⟩ | ⟨s', h, hrows, hjournal⟩
  · obtain ⟨rfl, rfl⟩ := Prod.mk.inj (hinsert.symm.trans h)
    exact ⟨hu, fun _ _ => rfl, fun _ _ _ user h => by cases h⟩
  · obtain ⟨rfl, rfl⟩ := Prod.mk.inj (hinsert.symm.trans h)
    have hadded := addedBy_append hjournal
    refine ⟨hu.append hrows hjournal, fun j hj => ?_, ?_⟩
    · rw [hadded, if_neg hj]
    · intro w hw _ user _
      refine ⟨stored lib c ⟨username, email, hashed⟩, ?_, rfl, rfl⟩
      rw [hw, hadded, if_pos rfl]
      exact List.mem_append_right _ (List.mem_singleton.mpr rfl)

theorem safe_storeUser_row (production : Bool) (username : JsString) (email password : Value)
    {s : Database ι} (hinv : Recorded s) :
    Safe (exec lib) Anything (appending Recorded) i (Registers lib i email password)
      (storeUser production username email password) s := by
  refine (safe_hash password s).bind (fun hashed u hu hhash => ?_)
    (fun e u _ _ status message data h => by cases h) hinv
  obtain ⟨salt, hsalt⟩ := hhash hashed rfl
  refine (safe_save_row username email hashed u).bind (fun user v _ hsaved => ?_)
    (fun e v _ _ status message data h => by cases h) hu
  obtain ⟨row, hrow, hemail, hpassword⟩ := hsaved user rfl
  refine safe_of_issues (welcome_issues production user) (Program.ends_anything _)
    (fun r w _ hadded status message data _ => ?_) rfl
  exact ⟨row, hadded ▸ hrow, hemail, salt, hpassword ▸ hsalt⟩

/-- A registration that answers has stored the address and a hash of the password. -/
theorem safe_registration_row (case : CaseMapping) (production : Bool) (body : RegistrationBody)
    {s : Database ι} (hinv : Recorded s) :
    Safe (exec lib) Anything (appending Recorded) i (Registers lib i body.email body.password)
      (registration case production body) s := by
  have htry : Safe (exec lib) Anything (appending Recorded) i
      (Registers lib i body.email body.password) (tryRegistration case production body) s := by
    refine safe_checks case production body (fun _ _ _ _ _ _ h => by cases h) ?_ hinv rfl
    intro username u _ hu _
    exact safe_storeUser_row production username body.email body.password hu
  refine htry.tryCatch (fun result u _ hregisters => hregisters) (fun e u _ _ => ?_) hinv
  exact fun v _ _ status message data h => by cases h

end Registration

/-- A login with the e-mail address of a registration. -/
structure LoginRequest {rules : EmailRules} (b : ValidBody rules) (password : JsString) where
  raw : Value
  email : raw.field "email" = b.raw.field "email"
  password : raw.field "password" = .json (.str password)

section Login

variable {ι : Type} (lib : Libraries) (rules : EmailRules) (production : Bool)

/-- The answer to a request of client `i` that `validateRequest` lets through. -/
def loginAnswer (i : ι) (e : ℕ → Conditions) (s : Database ι) (raw : Value) :
    Option (Except JsError HttpResult) :=
  match loginValidation rules raw with
  | .ok (body, []) =>
    (runFrom (fun c op s => some (effect lib i c op s)) e
      (login production body.email body.password) 0 s).map Prod.fst
  | _ => none

def rejected : Except JsError HttpResult :=
  .ok (.next (.apiError 401 "Invalid email or password"))

def accepted : Except JsError HttpResult := .ok (.json 200 "Login successful" none)

variable {lib rules production} {i : ι}

/-- Without a failure, a query finds the only row that matches. -/
theorem find_only {c : Conditions} (hc : c.failure = none) {rows : List User} {u : User}
    (hu : u ∈ rows) (honly : ∀ v ∈ rows, v = u) : c.find rows = .ok (some u) := by
  cases rows with
  | nil => cases hu
  | cons w rest =>
    have hmem : (w :: rest).getD c.row w ∈ w :: rest := by
      rw [List.getD_eq_getElem?_getD]
      cases hget : (w :: rest)[c.row]? with
      | none => exact List.mem_cons_self
      | some v => exact List.mem_of_getElem? hget
    simp only [Conditions.find, hc, honly _ hmem]

theorem find_email {c : Conditions} (hc : c.failure = none) {users : Table} {u : User}
    (hu : u ∈ users.rows) {email : JsString} (hemail : u.email = email) :
    c.find (users.rows.filter fun v => v.email = email) = .ok (some u) := by
  refine find_only hc (List.mem_filter.mpr ⟨hu, by simpa using hemail⟩) fun v hv => ?_
  obtain ⟨hrow, hsame⟩ := List.mem_filter.mp hv
  have heq : v.email = u.email := (of_decide_eq_true hsame).trans hemail.symm
  exact List.inj_on_of_nodup_map users.emails_nodup hrow hu heq

/-- A login compares the password with the hash in the row for the address. -/
theorem login_result {e : ℕ → Conditions} (he : ∀ n, (e n).failure = none) {s : Database ι}
    {u : User} (hu : u ∈ s.users.rows) {email password : Value}
    (hemail : u.email = lib.parameter email) {verdict : Bool}
    (hcompare : lib.compare password u.password = .ok verdict) :
    (runFrom (fun c op s => some (effect lib i c op s)) e (login production email password) 0
      s).map Prod.fst = some (if verdict then accepted else rejected) := by
  have hfind : effect lib i (e 0) (.findByEmail email) s = (.ok (some u), s) :=
    Prod.ext (find_email (he 0) hu hemail) rfl
  have hverdict : effect lib i (e 1) (.compare password u.password) s = (.ok verdict, s) :=
    Prod.ext hcompare rfl
  simp only [login, orNext, Program.attempt, perform, Program.call, Program.bind_eq,
    Program.bind_perform, Program.bind_ok, Program.tryCatch_perform, runFrom, hfind, hverdict,
    Option.bind_some]
  cases verdict with
  | false => rfl
  | true => rfl

/-- The answer to a login depends on the significant bytes of its password only. -/
theorem loginAnswer_eq (hlib : ComparesSignificant lib) {e : ℕ → Conditions}
    (he : ∀ n, (e n).failure = none) {s : Database ι} {b : ValidBody rules}
    {password other : JsString} (hpassword : b.password = .json (.str password))
    {u : User} (hu : u ∈ s.users.rows) (hstored : StoredFor lib b.email b.password u)
    (hother : AcceptsPassword other) (request : LoginRequest b other) :
    loginAnswer lib rules production i e s request.raw =
      some (if significant other = significant password then accepted else rejected) := by
  obtain ⟨hemail, salt, hsalt⟩ := hstored
  rw [hpassword] at hsalt
  have hvalid : loginValidation rules request.raw =
      .ok (⟨b.email, .json (.str other)⟩, []) := by
    rw [loginValidation, request.email, request.password, loginEmailChain_ok b.email_ok,
      loginPasswordChain_ok hother]
    rfl
  simp only [loginAnswer, hvalid]
  rw [login_result he hu hemail (hlib salt password u.password other hsalt)]
  simp

end Login

section Runs

variable {ι : Type} [DecidableEq ι] {rules : EmailRules}

theorem stored_of_answer (lib : Libraries) (case : CaseMapping) (production : Bool)
    (bodies : ι → ValidBody rules) {t : Table} {q : Pool ι Ans JsError HttpResult (Database ι)}
    (run : Steps (exec lib) Anything (start case production bodies t) q) {i : ι} {status : ℕ}
    {message : String} {data : Option UserData}
    (hresult : q.result i = some (.ok (.json status message data))) :
    ∃ u ∈ q.shared.users.rows, StoredFor lib (bodies i).email (bodies i).password u := by
  have hstart : Recorded (start case production bodies t).shared :=
    fun entry hentry => absurd hentry List.not_mem_nil
  have hsafe : ∀ i, Safe (exec lib) Anything (appending Recorded) i
      (Registers lib i (bodies i).email (bodies i).password)
      ((start case production bodies t).threads i) (start case production bodies t).shared :=
    fun i => safe_registration_row case production (bodies i).toRegistrationBody hstart
  have hrecorded : Recorded q.shared := (run.safe hstart hsafe).1
  obtain ⟨u, hu, hstored⟩ := run.post hstart hsafe hresult status message data rfl
  obtain ⟨entry, hentry, rfl⟩ := List.mem_map.mp hu
  exact ⟨entry.2, hrecorded entry (List.mem_filter.mp hentry).1, hstored⟩

/-- After a registration that answered 200, in any interleaving with others: a login with
another accepted password is rejected, and one with the registered password succeeds, just when
the first 72 bytes of the two passwords are different. -/
theorem only_registered_password_iff {lib : Libraries} (hlib : ComparesSignificant lib)
    (case : CaseMapping) (production : Bool) (bodies : ι → ValidBody rules) {t : Table}
    {q : Pool ι Ans JsError HttpResult (Database ι)}
    (run : Steps (exec lib) Anything (start case production bodies t) q) {i : ι}
    {message : String} {data : Option UserData}
    (hresult : q.result i = some (.ok (.json 200 message data)))
    {password other : JsString} (hpassword : (bodies i).password = .json (.str password))
    (hother : AcceptsPassword other) (own : LoginRequest (bodies i) password)
    (foreign : LoginRequest (bodies i) other) {e : ℕ → Conditions}
    (he : ∀ n, (e n).failure = none) :
    (loginAnswer lib rules production i e q.shared foreign.raw = some rejected ∧
        loginAnswer lib rules production i e q.shared own.raw = some accepted) ↔
      significant other ≠ significant password := by
  obtain ⟨u, hu, hstored⟩ := stored_of_answer lib case production bodies run hresult
  rw [loginAnswer_eq hlib he hpassword hu hstored hother foreign,
    loginAnswer_eq hlib he hpassword hu hstored ((bodies i).acceptsPassword hpassword) own]
  by_cases hsame : significant other = significant password
  · simp [hsame, accepted, rejected]
  · simp [hsame]

end Runs

/-- A library whose hashes are the significant bytes. -/
def significantBytes : Libraries where
  parameter := plainText.parameter
  hash _ password :=
    match password with
    | .json (.str s) => .ok ((significant s).map UInt8.toUInt16)
    | _ => .error (.failure "Illegal arguments")
  compare password hashed :=
    match password with
    | .json (.str s) => .ok ((significant s).map UInt8.toUInt16 = hashed)
    | _ => .error (.failure "Illegal arguments")

theorem toUInt16_injective : Function.Injective UInt8.toUInt16 := fun a b h => by
  have hnat := congrArg UInt16.toNat h
  rw [UInt8.toNat_toUInt16, UInt8.toNat_toUInt16] at hnat
  exact UInt8.toNat_inj.mp hnat

theorem significantBytes_compares : ComparesSignificant significantBytes := by
  intro salt password hashed other hhash
  obtain rfl := Except.ok.inj hhash
  have hinjective := List.map_injective_iff.mpr toUInt16_injective
  exact congrArg Except.ok (decide_eq_decide.mpr hinjective.eq_iff)

/-- A password of 73 characters. -/
def longPassword (last : UInt16) : JsString := js "Aa1!" ++ List.replicate 68 0x61 ++ [last]

def longBody (last : UInt16) : Value :=
  .json (.obj [(js "username", .str (js "alice")), (js "email", .str (js "a@example.com")),
    (js "password", .str (longPassword last))])

def longRequest (_ : Unit) : ValidBody lenient where
  username := .json (.str (js "alice"))
  email := .json (.str (js "a@example.com"))
  password := .json (.str (longPassword 0x78))
  raw := longBody 0x78
  valid := rfl

def afterRegistration : Pool Unit Ans JsError HttpResult (Database Unit) :=
  reach (exec significantBytes) Anything (List.replicate 7 ((), calm "u1"))
    (start asciiMapping true longRequest Table.empty)

theorem afterRegistration_result : afterRegistration.result () =
    some (.ok (.json 200 "User registered successfully"
      (some ⟨js "u1", js "alice", .json (.str (js "a@example.com"))⟩))) := rfl

def longLogin (last : UInt16) : LoginRequest (longRequest ()) (longPassword last) :=
  ⟨longBody last, rfl, rfl⟩

def shortLogin : LoginRequest (longRequest ()) (js "Passw0rd!") :=
  ⟨rawBody "alice" "a@example.com", rfl, rfl⟩

theorem accepts_short : AcceptsPassword (js "Passw0rd!") := rfl

theorem accepts_long : AcceptsPassword (longPassword 0x79) := rfl

/-- A password that begins otherwise is rejected. -/
theorem shortLogin_rejected :
    loginAnswer significantBytes lenient true () (fun _ => calm "u1") afterRegistration.shared
        shortLogin.raw = some rejected ∧
      loginAnswer significantBytes lenient true () (fun _ => calm "u1") afterRegistration.shared
        (longLogin 0x78).raw = some accepted :=
  (only_registered_password_iff significantBytes_compares asciiMapping true longRequest
    (steps_reach _ _) afterRegistration_result rfl
    accepts_short (longLogin 0x78) shortLogin fun _ => rfl).mpr (by decide +kernel)

/-- A password that differs from the registered one in the last of its 73 characters logs in. -/
theorem longLogin_accepted :
    longPassword 0x79 ≠ longPassword 0x78 ∧ AcceptsPassword (longPassword 0x79) ∧
      loginAnswer significantBytes lenient true () (fun _ => calm "u1") afterRegistration.shared
        (longLogin 0x79).raw = some accepted := by
  refine ⟨by decide +kernel, accepts_long, ?_⟩
  obtain ⟨u, hu, hstored⟩ := stored_of_answer significantBytes asciiMapping true longRequest
    (steps_reach _ _) afterRegistration_result
  refine (loginAnswer_eq significantBytes_compares (fun _ => rfl) rfl hu hstored accepts_long
    (longLogin 0x79)).trans ?_
  exact congrArg some (if_pos (by decide +kernel))

end ChatMicroservices.PasswordLogin

import ChatMicroservices.AuthController
import ChatMicroservices.ConcurrentPrograms

/-!
# Concurrent registrations

Any number of validated registrations run against one table of users, statement by statement.
The table rejects a second row for a username or an e-mail address, so what the check of a
request has missed fails its insertion. A journal that no request reads says who added which
row.
-/

namespace ChatMicroservices.RegistrationRaces
open JavaScriptValues EffectPrograms ConcurrentPrograms UsersTable AuthValidation AuthController

/-- How the driver sends a value, and `hash` and `compare` of the password library, the former
with the salt that it draws. -/
structure Libraries where
  parameter : Value → JsString
  hash : JsString → Value → Except JsError JsString
  compare : Value → JsString → Except JsError Bool

/-- What is left open by one effect: whether a statement fails, which of the matching rows is
found, the generated columns, the salt and the token, and what the broker client does. -/
structure Conditions where
  failure : Option JsError
  row : ℕ
  newId : JsString
  now : ℕ
  salt : JsString
  token : JsString
  sendToQueue : Except JsError Unit

structure Database (ι : Type) where
  users : Table
  journal : List (ι × User)

def duplicateKey : JsError := .failure "duplicate key value violates unique constraint"

/-- A query that finds one of the matching rows if there is one. -/
def Conditions.find (c : Conditions) (rows : List User) : Except JsError (Option User) :=
  match c.failure, rows with
  | some e, _ => .error e
  | none, [] => .ok none
  | none, u :: rest => .ok (some ((u :: rest).getD c.row u))

section Semantics

variable {ι : Type} (lib : Libraries)

def stored (c : Conditions) (row : NewUser) : User :=
  ⟨c.newId, row.username, lib.parameter row.email, row.password, c.now, c.now⟩

/-- The `INSERT` of a user by request `i`. -/
def insert (i : ι) (c : Conditions) (row : NewUser) (s : Database ι) :
    Except JsError JsString × Database ι :=
  match c.failure, s.users.insert (stored lib c row) with
  | some e, _ => (.error e, s)
  | none, none => (.error duplicateKey, s)
  | none, some users => (.ok c.newId, ⟨users, s.journal ++ [(i, stored lib c row)]⟩)

def effect (i : ι) (c : Conditions) : (op : Op) → Database ι → Ans op × Database ι
  | .findOne email username, s =>
    (c.find (s.users.rows.filter fun u =>
      u.email = lib.parameter email ∨ u.username = username), s)
  | .findByEmail email, s =>
    (c.find (s.users.rows.filter fun u => u.email = lib.parameter email), s)
  | .hash password, s => (lib.hash c.salt password, s)
  | .compare password hashedPassword, s => (lib.compare password hashedPassword, s)
  | .insert row, s => insert lib i c row s
  | .sign _, s => (c.token, s)
  | .currentTime, s => (c.now, s)
  | .cookie _ _ _, s => ((), s)
  | .sendToQueue _, s => (c.sendToQueue, s)

def exec : Semantics ι Conditions (Database ι) Ans := fun i c op s => some (effect lib i c op s)

def Inserts : Op → Prop
  | .insert _ => True
  | _ => False

theorem effect_of_not_inserts {i : ι} {c : Conditions} {op : Op} (h : ¬ Inserts op)
    (s : Database ι) : (effect lib i c op s).2 = s := by
  cases op with
  | insert row => exact absurd trivial h
  | _ => rfl

end Semantics

section Journal

variable {ι : Type}

/-- The table is the one at the start with the rows of the journal after it. -/
structure Journalled (t : Table) (s : Database ι) : Prop where
  rows : s.users.rows = t.rows ++ s.journal.map Prod.snd
  usernames : ∀ u ∈ s.users.rows, usernameRegex u.username = true

/-- Everything an `INSERT` can do. -/
theorem insert_cases (lib : Libraries) (i : ι) (c : Conditions) (row : NewUser)
    (s : Database ι) :
    (∃ e, insert lib i c row s = (.error e, s)) ∨
    (∃ s', insert lib i c row s = (.ok c.newId, s') ∧
      s'.users.rows = s.users.rows ++ [stored lib c row] ∧
      s'.journal = s.journal ++ [(i, stored lib c row)]) := by
  unfold insert
  cases c.failure with
  | some e => exact .inl ⟨e, rfl⟩
  | none =>
    cases hinsert : s.users.insert (stored lib c row) with
    | none => exact .inl ⟨duplicateKey, rfl⟩
    | some users => exact .inr ⟨_, rfl, Table.insert_eq_some hinsert, rfl⟩

theorem Journalled.append {t : Table} {s s' : Database ι} (h : Journalled t s) {i : ι} {u : User}
    (hrows : s'.users.rows = s.users.rows ++ [u]) (hjournal : s'.journal = s.journal ++ [(i, u)])
    (hu : usernameRegex u.username = true) : Journalled t s' := by
  constructor
  · rw [hrows, hjournal, h.rows, List.map_append, List.append_assoc]
    rfl
  · intro v hv
    rw [hrows] at hv
    rcases List.mem_append.mp hv with hv | hv
    · exact h.usernames v hv
    · obtain rfl := List.mem_singleton.mp hv
      exact hu

variable [DecidableEq ι]

/-- The rows that request `i` has added. -/
def Database.addedBy (s : Database ι) (i : ι) : List User :=
  (s.journal.filter fun entry => entry.1 = i).map Prod.snd

theorem addedBy_append {s s' : Database ι} {i : ι} {u : User}
    (hjournal : s'.journal = s.journal ++ [(i, u)]) (j : ι) :
    s'.addedBy j = if j = i then s.addedBy j ++ [u] else s.addedBy j := by
  unfold Database.addedBy
  rw [hjournal, List.filter_append, List.map_append]
  by_cases h : j = i
  · subst h
    simp
  · simp [h, Ne.symm h]

/-- Requests append to the journal under their own name. -/
def registering (t : Table) : Protocol ι (Database ι) where
  inv := Journalled t
  rely i s s' := s'.addedBy i = s.addedBy i
  guar j s s' := ∀ i, i ≠ j → s'.addedBy i = s.addedBy i
  rely_refl _ _ := rfl
  rely_trans _ _ _ _ h h' := Eq.trans h' h
  compatible := fun hij _ _ _ h => h _ hij

/-- The same with any invariant. -/
def appending (invariant : Database ι → Prop) : Protocol ι (Database ι) :=
  { registering Table.empty with
    inv := invariant
    compatible := fun hij _ _ _ h => h _ hij }

end Journal

section Requests

variable {ι : Type} [DecidableEq ι] {lib : Libraries} {t : Table} {i : ι}

/-- What a request leaves behind, as its outcome says. -/
def Leaves (i : ι) (r : Except JsError HttpResult) (s : Database ι) : Prop :=
  match r with
  | .ok (.json _ _ data) => ∃ u, s.addedBy i = [u] ∧ data.map UserData.id = some u.id
  | .ok (.next _) => s.addedBy i = []
  | .error _ => False

/-- A program that inserts nothing leaves the journal of its request alone. -/
theorem safe_of_issues {α : Type} {invariant : Database ι → Prop} {Q : Except JsError α → Prop}
    {us : List User} {post : Except JsError α → Database ι → Prop} {p : Handler α}
    (hp : p.Issues fun op => ¬ Inserts op) (hends : p.Ends Q)
    (hpost : ∀ r s, Q r → s.addedBy i = us → post r s) {s : Database ι}
    (hs : s.addedBy i = us) : Safe (exec lib) Anything (appending invariant) i post p s := by
  induction p generalizing s with
  | done r => exact fun u hsu _ => hpost r u hends (hsu.trans hs)
  | perform op next ih =>
    intro u hsu hu _ c a v hexec
    have hstate : v = u := by
      have heffect := effect_of_not_inserts lib (i := i) (c := c) hp.1 u
      rw [Option.some.inj hexec] at heffect
      exact heffect
    subst hstate
    exact ⟨hu, fun _ _ => rfl, ih a (hp.2 a) (hends a) (hsu.trans hs)⟩

/-- What the insertion of a request leaves behind. -/
def Saves (i : ι) (r : Except JsError UserData) (s : Database ι) : Prop :=
  match r with
  | .ok user => ∃ u, s.addedBy i = [u] ∧ u.id = user.id
  | .error _ => s.addedBy i = []

theorem safe_save {row : NewUser} (hrow : usernameRegex row.username = true) {s : Database ι}
    (hs : s.addedBy i = []) :
    Safe (exec lib) Anything (registering t) i (Saves i) (save row) s := by
  intro u hsu hu _ c a v hexec
  have hinsert : insert lib i c row u = (a, v) := Option.some.inj hexec
  have hnothing : u.addedBy i = [] := hsu.trans hs
  rcases insert_cases lib i c row u with ⟨e, h⟩ | ⟨s', h, hrows, hjournal⟩
  · obtain ⟨rfl, rfl⟩ := Prod.mk.inj (hinsert.symm.trans h)
    refine ⟨hu, fun _ _ => rfl, ?_⟩
    exact fun w hw _ => hw.trans hnothing
  · obtain ⟨rfl, rfl⟩ := Prod.mk.inj (hinsert.symm.trans h)
    have hadded := addedBy_append hjournal
    refine ⟨hu.append hrows hjournal hrow, fun j hj => ?_, ?_⟩
    · rw [hadded, if_neg hj]
    · intro w hw _
      refine ⟨stored lib c row, ?_, rfl⟩
      have hmine : v.addedBy i = [stored lib c row] := by
        rw [hadded, if_pos rfl, hnothing, List.nil_append]
      exact hw.trans hmine

theorem welcome_issues (production : Bool) (user : UserData) :
    (welcome production user).Issues fun op => ¬ Inserts op := by
  refine ⟨id, fun token => ⟨id, fun now => ⟨id, fun _ => ⟨id, fun r => ?_⟩⟩⟩⟩
  cases r with
  | ok _ => trivial
  | error e => trivial

theorem welcome_ends (production : Bool) (user : UserData) :
    (welcome production user).Ends fun r =>
      r = .ok (.json 200 "User registered successfully" (some user)) := by
  intro token now _ r
  cases r with
  | ok _ => rfl
  | error e => rfl

/-- The outcome of the `try` block of a registration. -/
def Tries (i : ι) (r : Except JsError HttpResult) (s : Database ι) : Prop :=
  match r with
  | .error _ => s.addedBy i = []
  | .ok result => Leaves i (.ok result) s

theorem safe_storeUser {username : JsString} (husername : usernameRegex username = true)
    (production : Bool) (email password : Value) {s : Database ι} (hinv : Journalled t s)
    (hs : s.addedBy i = []) : Safe (exec lib) Anything (registering t) i (Tries i)
      (storeUser production username email password) s := by
  have hissues : (Program.attempt (perform (.hash password))).Issues fun op => ¬ Inserts op :=
    ⟨id, fun _ => trivial⟩
  have hhash : Safe (exec lib) Anything (registering t) i (fun _ s => s.addedBy i = [])
      (Program.attempt (perform (.hash password))) s :=
    safe_of_issues hissues (Program.ends_anything _) (fun _ _ _ hu => hu) hs
  refine hhash.bind (fun hash u hu hnothing => ?_) (fun e u _ hnothing => hnothing) hinv
  refine (safe_save husername hnothing).bind (fun user v _ hsaved => ?_)
    (fun e v _ hnothing => hnothing) hu
  obtain ⟨row, hadded, hid⟩ := hsaved
  apply safe_of_issues (welcome_issues production user) (welcome_ends production user) _ hadded
  rintro r w rfl hrow
  exact ⟨row, hrow, congrArg some hid.symm⟩

/-- The checks of a registration leave the journal alone, whether they throw or not. -/
theorem safe_checks {invariant : Database ι → Prop} {us : List User}
    {post : Except JsError HttpResult → Database ι → Prop} (case : CaseMapping)
    (production : Bool) (body : RegistrationBody)
    (hthrow : ∀ e s, s.addedBy i = us → post (.error e) s)
    (hstore : ∀ username s, usernameRegex username = true → invariant s → s.addedBy i = us →
      Safe (exec lib) Anything (appending invariant) i post
        (storeUser production username body.email body.password) s)
    {s : Database ι} (hinv : invariant s) (hs : s.addedBy i = us) :
    Safe (exec lib) Anything (appending invariant) i post
      (tryRegistration case production body) s := by
  have hthrows : ∀ e s, s.addedBy i = us →
      Safe (exec lib) Anything (appending invariant) i post (.done (.error e)) s :=
    fun e s hs u hu _ => hthrow e u (Eq.trans hu hs)
  unfold tryRegistration
  cases huname : uname case body.username with
  | error e => exact hthrows e s hs
  | ok username =>
    by_cases hregex : usernameRegex username = true
    · simp only [sync, Program.bind_eq, Program.bind_ok, hregex, not_true_eq_false, if_false]
      have hissues : (Program.attempt (perform (.findOne body.email username))).Issues
          fun op => ¬ Inserts op := ⟨id, fun _ => trivial⟩
      have hfind : Safe (exec lib) Anything (appending invariant) i (fun _ s => s.addedBy i = us)
          (Program.attempt (perform (.findOne body.email username))) s :=
        safe_of_issues hissues (Program.ends_anything _) (fun _ _ _ hu => hu) hs
      refine hfind.bind (fun found u hu hsame => ?_) (fun e u _ hsame => hthrow e u hsame) hinv
      cases found with
      | none => exact hstore username u hregex hu hsame
      | some existing =>
        dsimp only
        split
        · exact hthrows _ u hsame
        · exact hthrows _ u hsame
    · simp only [sync, Program.bind_eq, Program.bind_ok, hregex]
      exact hthrows _ s hs

theorem safe_tryRegistration (case : CaseMapping) (production : Bool) (body : RegistrationBody)
    {s : Database ι} (hinv : Journalled t s) (hs : s.addedBy i = []) :
    Safe (exec lib) Anything (registering t) i (Tries i)
      (tryRegistration case production body) s := by
  refine safe_checks case production body (fun _ _ hnothing => hnothing) ?_ hinv hs
  intro username u hregex hu hnothing
  exact safe_storeUser hregex production body.email body.password hu hnothing

/-- A registration leaves a row behind exactly when it answers 200, whatever the others do. -/
theorem safe_registration (case : CaseMapping) (production : Bool) (body : RegistrationBody)
    {s : Database ι} (hinv : Journalled t s) (hs : s.addedBy i = []) :
    Safe (exec lib) Anything (registering t) i (Leaves i) (registration case production body)
      s := by
  have htry : Safe (exec lib) Anything (registering t) i (Tries i)
      (tryRegistration case production body) s :=
    safe_tryRegistration case production body hinv hs
  refine htry.tryCatch (fun result u _ hleaves => hleaves) (fun e u _ hnothing => ?_) hinv
  exact fun v huv _ => huv.trans hnothing

end Requests

section Runs

variable {ι : Type} {rules : EmailRules}

/-- Requests before their first statements. -/
def start (case : CaseMapping) (production : Bool) (bodies : ι → ValidBody rules) (t : Table) :
    Pool ι Ans JsError HttpResult (Database ι) :=
  ⟨⟨t, []⟩, fun i => registration case production (bodies i).toRegistrationBody⟩

theorem usernameRegex_chars {s : JsString} (h : usernameRegex s = true) {u : UInt16}
    (hu : u ∈ s) : u < 0x80 ∧ lowerLetter u = u := by
  simp only [usernameRegex, List.all_eq_true, decide_eq_true_eq] at h
  have hchar := h.2.2 u hu
  simp only [isLowerCase, JSON.isDigit, decide_eq_true_eq, UInt16.le_iff_toNat_le,
    UInt16.reduceToNat] at hchar
  simp only [lowerLetter, isUpperCase, decide_eq_true_eq, UInt16.le_iff_toNat_le,
    UInt16.lt_iff_toNat_lt, UInt16.reduceToNat]
  rcases hchar with hlower | hdigit | rfl | rfl
  · exact ⟨by omega, if_neg (by omega)⟩
  · exact ⟨by omega, if_neg (by omega)⟩
  · decide
  · decide

/-- Lower case is the only case of a username. -/
theorem toLowerCase_of_usernameRegex (case : CaseMapping) {s : JsString}
    (h : usernameRegex s = true) : case.toLowerCase s = s := by
  rw [case.ascii s fun u hu => (usernameRegex_chars h hu).1]
  exact (List.map_congr_left fun u hu => (usernameRegex_chars h hu).2).trans (List.map_id s)

/-- What the registrations of a run have made of the table `t`. -/
structure IdentitiesKept [DecidableEq ι] (case : CaseMapping) (t : Table)
    (q : Pool ι Ans JsError HttpResult (Database ι)) : Prop where
  distinct : q.shared.users.rows.Pairwise fun u v =>
    case.toLowerCase u.username ≠ case.toLowerCase v.username ∧ u.email ≠ v.email
  usernames : ∀ u ∈ q.shared.users.rows, usernameRegex u.username = true
  rows : q.shared.users.rows = t.rows ++ q.shared.journal.map Prod.snd
  answered : ∀ i status message data, q.result i = some (.ok (.json status message data)) →
    ∃ u, q.shared.addedBy i = [u] ∧ data.map UserData.id = some u.id
  failed : ∀ i e, q.result i = some (.ok (.next e)) → q.shared.addedBy i = []

/-- From a table of proper usernames, in every interleaving of validated registrations. -/
theorem registrations_keep_identities [DecidableEq ι] (lib : Libraries) (case : CaseMapping)
    (production : Bool) (bodies : ι → ValidBody rules) {t : Table}
    (ht : ∀ u ∈ t.rows, usernameRegex u.username = true)
    {q : Pool ι Ans JsError HttpResult (Database ι)}
    (run : Steps (exec lib) Anything (start case production bodies t) q) :
    IdentitiesKept case t q := by
  have hstart : Journalled t (start case production bodies t).shared :=
    ⟨(List.append_nil _).symm, ht⟩
  have hsafe : ∀ i, Safe (exec lib) Anything (registering t) i (Leaves i)
      ((start case production bodies t).threads i) (start case production bodies t).shared :=
    fun i => safe_registration case production (bodies i).toRegistrationBody hstart rfl
  have hjournal : Journalled t q.shared := (run.safe hstart hsafe).1
  constructor
  case distinct =>
    refine q.shared.users.pairwise_distinct.imp_of_mem fun hu hv h => ⟨?_, h.2⟩
    rw [toLowerCase_of_usernameRegex case (hjournal.usernames _ hu),
      toLowerCase_of_usernameRegex case (hjournal.usernames _ hv)]
    exact h.1
  case usernames => exact hjournal.usernames
  case rows => exact hjournal.rows
  case answered =>
    intro i status message data hresult
    exact run.post hstart hsafe hresult
  case failed =>
    intro i e hresult
    exact run.post hstart hsafe hresult

end Runs

def asciiMapping : CaseMapping := ⟨List.map lowerLetter, fun _ _ => rfl⟩

/-- Every text is an address, and none is rewritten. -/
def lenient : EmailRules := ⟨fun _ => true, some⟩

def plainText : Libraries where
  parameter
    | .json (.str s) => s
    | _ => []
  hash _ password :=
    match password with
    | .json (.str s) => .ok s
    | _ => .error (.failure "Illegal arguments")
  compare _ _ := .ok true

def calm (id : String) : Conditions := ⟨none, 0, js id, 0, [], js "token", .ok ()⟩

def body (username email : String) : RegistrationBody :=
  ⟨.json (.str (js username)), .json (.str (js email)), .json (.str (js "Passw0rd!"))⟩

def rawBody (username email : String) : Value :=
  .json (.obj [(js "username", .str (js username)), (js "email", .str (js email)),
    (js "password", .str (js "Passw0rd!"))])

def requests : Bool → ValidBody lenient
  | false => ⟨body "alice" "a@example.com", rawBody " alice" "a@example.com", rfl⟩
  | true => ⟨body "Alice" "b@example.com", rawBody "Alice" "b@example.com", rfl⟩

/-- Both requests look for a user and hash the password, then both insert. -/
def raceSchedule : List (Bool × Conditions) :=
  [(false, calm "u1"), (true, calm "u2"), (false, calm "u1"), (true, calm "u2"),
    (false, calm "u1"), (true, calm "u2")]

def afterRace : Pool Bool Ans JsError HttpResult (Database Bool) :=
  reach (exec plainText) Anything raceSchedule (start asciiMapping true requests Table.empty)

theorem registrations_keep_identities_race :
    IdentitiesKept asciiMapping Table.empty afterRace ∧
      afterRace.shared.users.rows.map User.username = [js "alice"] :=
  ⟨registrations_keep_identities plainText asciiMapping true requests
    (fun _ h => absurd h List.not_mem_nil) (steps_reach raceSchedule _), by decide +kernel⟩

end ChatMicroservices.RegistrationRaces

import ChatMicroservices.RegistrationRaces

/-!
# The events of registrations

A registration publishes an event once its row is stored. Any number of registrations run
statement by statement against one table, and the broker may refuse any of their events. What
it has accepted is a journal of its own.
-/

namespace ChatMicroservices.RegistrationEvents
open JavaScriptValues EffectPrograms ConcurrentPrograms UsersTable AuthValidation AuthController
open RegistrationRaces (Conditions Database Journalled Libraries addedBy_append insert_cases stored)

/-- The database, the events that the broker has accepted, and the requests whose event it has
refused. -/
structure World (ι : Type) where
  database : Database ι
  published : List (ι × EventPayload)
  refused : List ι

section Semantics

variable {ι : Type} (lib : Libraries)

def World.accept (w : World ι) (i : ι) (payload : EventPayload) : World ι :=
  { w with published := w.published ++ [(i, payload)] }

def World.refuse (w : World ι) (i : ι) : World ι := { w with refused := w.refused ++ [i] }

def publish (i : ι) (c : Conditions) (payload : EventPayload) (w : World ι) :
    Except JsError Unit × World ι :=
  match c.sendToQueue with
  | .ok () => (.ok (), w.accept i payload)
  | .error e => (.error e, w.refuse i)

def effect (i : ι) (c : Conditions) : (op : Op) → World ι → Ans op × World ι
  | .sendToQueue payload, w => publish i c payload w
  | op, w =>
    ((RegistrationRaces.effect lib i c op w.database).1,
      { w with database := (RegistrationRaces.effect lib i c op w.database).2 })

def exec : Semantics ι Conditions (World ι) Ans := fun i c op w => some (effect lib i c op w)

/-- The effect leaves the world alone. -/
def Local : Op → Prop
  | .insert _ | .sendToQueue _ => False
  | _ => True

theorem effect_of_local {i : ι} {c : Conditions} {op : Op} (h : Local op) (w : World ι) :
    (effect lib i c op w).2 = w := by
  cases op with
  | insert row => exact h.elim
  | sendToQueue payload => exact h.elim
  | _ => rfl

end Semantics

section Requests

variable {ι : Type} [DecidableEq ι]

/-- The events that the broker has accepted from request `i`. -/
def World.publishedBy (w : World ι) (i : ι) : List EventPayload :=
  (w.published.filter fun entry => entry.1 = i).map Prod.snd

theorem publishedBy_accept (w : World ι) (i : ι) (payload : EventPayload) (j : ι) :
    (w.accept i payload).publishedBy j =
      if j = i then w.publishedBy j ++ [payload] else w.publishedBy j := by
  unfold World.publishedBy World.accept
  rw [List.filter_append, List.map_append]
  by_cases h : j = i
  · subst h
    simp
  · simp [h, Ne.symm h]

/-- Nothing is there of request `i`. -/
structure Fresh (i : ι) (w : World ι) : Prop where
  added : w.database.addedBy i = []
  published : w.publishedBy i = []
  refused : i ∉ w.refused

/-- The row of request `i` is there. -/
def Stored (lib : Libraries) (i : ι) (user : UserData) (w : World ι) : Prop :=
  ∃ u, w.database.addedBy i = [u] ∧ u.id = user.id ∧ u.username = user.username ∧
    u.email = lib.parameter user.email

/-- The event is the one of the only row that request `i` has added. -/
def Announces (lib : Libraries) (i : ι) (email : Value) (w : World ι) (payload : EventPayload) :
    Prop :=
  ∃ user, payload = registeredEvent user ∧ user.email = email ∧ Stored lib i user w

/-- What is there of request `i` is the same. -/
structure SameFor (i : ι) (w w' : World ι) : Prop where
  added : w'.database.addedBy i = w.database.addedBy i
  published : w'.publishedBy i = w.publishedBy i
  refused : i ∈ w'.refused ↔ i ∈ w.refused

theorem SameFor.refl (i : ι) (w : World ι) : SameFor i w w := ⟨rfl, rfl, Iff.rfl⟩

/-- The table has grown by the rows of the requests, and what is published is the event of a
row, once for each request at most. -/
structure Announced (lib : Libraries) (emails : ι → Value) (t : Table) (w : World ι) : Prop where
  journalled : Journalled t w.database
  published : ∀ i, w.publishedBy i = [] ∨
    ∃ payload, w.publishedBy i = [payload] ∧ Announces lib i (emails i) w payload

def announcing (lib : Libraries) (emails : ι → Value) (t : Table) : Protocol ι (World ι) where
  inv := Announced lib emails t
  rely := SameFor
  guar j w w' := ∀ i, i ≠ j → SameFor i w w'
  rely_refl := SameFor.refl
  rely_trans _ _ _ _ h h' := ⟨h'.added.trans h.added, h'.published.trans h.published,
    h'.refused.trans h.refused⟩
  compatible := fun hij _ _ _ h => h _ hij

variable {lib : Libraries} {emails : ι → Value} {t : Table} {i : ι}

/-- The row of request `i` is there, and its event is still to come. -/
structure Waiting (lib : Libraries) (i : ι) (user : UserData) (w : World ι) : Prop where
  stored : Stored lib i user w
  published : w.publishedBy i = []
  refused : i ∉ w.refused

/-- The row of request `i` is there, and its event has been accepted or refused. -/
structure Settled (lib : Libraries) (i : ι) (user : UserData) (w : World ι) : Prop where
  stored : Stored lib i user w
  published : w.publishedBy i = [registeredEvent user] ∨ i ∈ w.refused

theorem Fresh.same {w w' : World ι} (h : Fresh i w) (hw : SameFor i w w') : Fresh i w' :=
  ⟨hw.added.trans h.added, hw.published.trans h.published, fun hi => h.refused (hw.refused.mp hi)⟩

theorem Stored.same {user : UserData} {w w' : World ι} (h : Stored lib i user w)
    (hw : SameFor i w w') : Stored lib i user w' := by
  obtain ⟨u, hadded, hu⟩ := h
  exact ⟨u, hw.added.trans hadded, hu⟩

theorem Waiting.same {user : UserData} {w w' : World ι} (h : Waiting lib i user w)
    (hw : SameFor i w w') : Waiting lib i user w' :=
  ⟨h.stored.same hw, hw.published.trans h.published, fun hi => h.refused (hw.refused.mp hi)⟩

theorem Settled.same {user : UserData} {w w' : World ι} (h : Settled lib i user w)
    (hw : SameFor i w w') : Settled lib i user w' := by
  refine ⟨h.stored.same hw, ?_⟩
  rcases h.published with hpublished | hrefused
  · exact .inl (hw.published.trans hpublished)
  · exact .inr (hw.refused.mpr hrefused)

/-- A step that touches request `i` only keeps the events of the others announced. -/
theorem Announced.step {w w' : World ι} (h : Announced lib emails t w)
    (hjournalled : Journalled t w'.database) (hothers : ∀ j, j ≠ i → SameFor j w w')
    (hmine : w'.publishedBy i = [] ∨
      ∃ payload, w'.publishedBy i = [payload] ∧ Announces lib i (emails i) w' payload) :
    Announced lib emails t w' := by
  refine ⟨hjournalled, fun j => ?_⟩
  by_cases hj : j = i
  · subst hj
    exact hmine
  · have hsame := hothers j hj
    rw [hsame.published]
    rcases h.published j with hnone | ⟨payload, hpayload, user, rfl, hemail, hstored⟩
    · exact .inl hnone
    · exact .inr ⟨_, hpayload, user, rfl, hemail, hstored.same hsame⟩

/-- A program that leaves the world alone keeps what is there of its request. -/
theorem safe_of_local {α : Type} {Q : Except JsError α → Prop} {K : World ι → Prop}
    (hK : ∀ {w w'}, K w → SameFor i w w' → K w') {post : Except JsError α → World ι → Prop}
    {p : Handler α} (hp : p.Issues Local) (hends : p.Ends Q)
    (hpost : ∀ r w, Q r → K w → post r w) {w : World ι} (hw : K w) :
    Safe (exec lib) Anything (announcing lib emails t) i post p w := by
  induction p generalizing w with
  | done r => exact fun u hwu _ => hpost r u hends (hK hw hwu)
  | perform op next ih =>
    intro u hwu hu _ c a v hexec
    have hstate : v = u := by
      have heffect := effect_of_local lib (i := i) (c := c) hp.1 u
      rw [Option.some.inj hexec] at heffect
      exact heffect
    subst hstate
    exact ⟨hu, fun j _ => .refl j v, ih a (hp.2 a) (hends a) (hK hw hwu)⟩

/-- What the insertion of a request leaves behind. -/
def Saves (lib : Libraries) (i : ι) (email : Value) (r : Except JsError UserData)
    (w : World ι) : Prop :=
  match r with
  | .ok user => user.email = email ∧ Waiting lib i user w
  | .error _ => Fresh i w

theorem safe_save {row : NewUser} (hrow : usernameRegex row.username = true) {w : World ι}
    (hw : Fresh i w) : Safe (exec lib) Anything (announcing lib emails t) i
      (Saves lib i row.email) (save row) w := by
  intro u hwu hu _ c a v hexec
  have hfresh := hw.same hwu
  have heffect : ((RegistrationRaces.insert lib i c row u.database).1,
      ({ u with database := (RegistrationRaces.insert lib i c row u.database).2 } : World ι)) =
        (a, v) := Option.some.inj hexec
  obtain ⟨rfl, rfl⟩ := Prod.mk.inj heffect
  rcases insert_cases lib i c row u.database with ⟨e, h⟩ | ⟨s', h, hrows, hjournal⟩
  · rw [h]
    exact ⟨hu, fun j _ => .refl j u, fun x hux _ => hfresh.same hux⟩
  · rw [h]
    have hadded := addedBy_append hjournal
    have hothers : ∀ j, j ≠ i → SameFor j u { u with database := s' } := fun j hj =>
      ⟨by rw [hadded, if_neg hj], rfl, Iff.rfl⟩
    have hmine : s'.addedBy i = [stored lib c row] := by
      rw [hadded, if_pos rfl, hfresh.added, List.nil_append]
    have hwaiting : Waiting lib i ⟨c.newId, row.username, row.email⟩ { u with database := s' } :=
      ⟨⟨stored lib c row, hmine, rfl, rfl, rfl⟩, hfresh.published, hfresh.refused⟩
    exact ⟨hu.step (hu.journalled.append hrows hjournal hrow) hothers (.inl hfresh.published),
      hothers, fun x hux _ => ⟨rfl, hwaiting.same hux⟩⟩

/-- How a request ends, and what is there of it then. -/
def Leaves (lib : Libraries) (i : ι) (email : Value) (r : Except JsError HttpResult)
    (w : World ι) : Prop :=
  match r with
  | .ok (.json _ _ data) => ∃ user, data = some user ∧ user.email = email ∧ Settled lib i user w
  | .ok (.next _) => Fresh i w
  | .error _ => False

/-- The outcome of the `try` block of a registration. -/
def Tries (lib : Libraries) (i : ι) (email : Value) (r : Except JsError HttpResult)
    (w : World ι) : Prop :=
  match r with
  | .error _ => Fresh i w
  | .ok result => Leaves lib i email (.ok result) w

theorem safe_publish {user : UserData} (hemail : user.email = emails i) {w : World ι}
    (hw : Waiting lib i user w) : Safe (exec lib) Anything (announcing lib emails t) i
      (fun _ w => Settled lib i user w) (publishNotification (registeredEvent user)) w := by
  intro u hwu hu _ c a v hexec
  have hwaiting := hw.same hwu
  have heffect : publish i c (registeredEvent user) u = (a, v) := Option.some.inj hexec
  rw [publish] at heffect
  cases hanswer : c.sendToQueue with
  | ok answer =>
    rw [hanswer] at heffect
    obtain ⟨rfl, rfl⟩ := Prod.mk.inj heffect
    have hothers : ∀ j, j ≠ i → SameFor j u (u.accept i (registeredEvent user)) :=
      fun j hj => ⟨rfl, by rw [publishedBy_accept, if_neg hj], Iff.rfl⟩
    have hmine : (u.accept i (registeredEvent user)).publishedBy i = [registeredEvent user] := by
      rw [publishedBy_accept, if_pos rfl, hwaiting.published, List.nil_append]
    have hsettled : Settled lib i user (u.accept i (registeredEvent user)) :=
      ⟨hwaiting.stored, .inl hmine⟩
    exact ⟨hu.step hu.journalled hothers
      (.inr ⟨_, hmine, user, rfl, hemail, hsettled.stored⟩), hothers,
      fun x hux _ => hsettled.same hux⟩
  | error e =>
    rw [hanswer] at heffect
    obtain ⟨rfl, rfl⟩ := Prod.mk.inj heffect
    have hothers : ∀ j, j ≠ i → SameFor j u (u.refuse i) :=
      fun j hj => ⟨rfl, rfl, by simp [World.refuse, hj]⟩
    have hsettled : Settled lib i user (u.refuse i) :=
      ⟨hwaiting.stored, .inr (List.mem_append_right _ List.mem_cons_self)⟩
    exact ⟨hu.step hu.journalled hothers (.inl hwaiting.published), hothers,
      fun x hux _ => hsettled.same hux⟩

theorem safe_welcome (production : Bool) {user : UserData} (hemail : user.email = emails i)
    {w : World ι} (hinv : Announced lib emails t w) (hw : Waiting lib i user w) :
    Safe (exec lib) Anything (announcing lib emails t) i (Tries lib i (emails i))
      (welcome production user) w := by
  have hissues : (createSendToken production user).Issues Local :=
    ⟨trivial, fun _ => ⟨trivial, fun _ => ⟨trivial, fun _ => trivial⟩⟩⟩
  have hends : (createSendToken production user).Ends fun r => ∃ token, r = .ok token :=
    fun token _ _ => ⟨token, rfl⟩
  have htoken : Safe (exec lib) Anything (announcing lib emails t) i
      (fun r w => (∃ token, r = .ok token) ∧ Waiting lib i user w)
      (createSendToken production user) w :=
    safe_of_local (fun h => h.same) hissues hends (fun _ _ hr hw => ⟨hr, hw⟩) hw
  refine htoken.bind (fun token u hu hwaiting => ?_) (fun e u _ hnever => ?_) hinv
  · have hpublish : Safe (exec lib) Anything (announcing lib emails t) i
        (fun r w => r = .ok () ∧ Settled lib i user w)
        (Program.tryCatch (do
          let _ ← publishNotification (registeredEvent user)
          pure ()) fun _ => pure ()) u := by
      have hreturns : Safe (exec lib) Anything (announcing lib emails t) i
          (fun _ w => Settled lib i user w)
          ((publishNotification (registeredEvent user)).bind fun _ => pure ()) u :=
        (safe_publish hemail hwaiting.2).bind (fun _ v _ h x hvx _ => h.same hvx)
          (fun _ _ _ h => h) hu
      exact hreturns.tryCatch (fun _ _ _ h => ⟨rfl, h⟩)
        (fun _ v _ h x hvx _ => ⟨rfl, h.same hvx⟩) hu
    refine hpublish.bind (fun _ v _ hsettled x hvx _ => ?_) (fun e v _ hnever => ?_) hu
    · exact ⟨user, rfl, hemail, hsettled.2.same hvx⟩
    · cases hnever.1
  · obtain ⟨_, ⟨⟩⟩ := hnever.1

/-- What precedes the insertion: the checks, which give the username. -/
def checks (case : CaseMapping) (body : RegistrationBody) : Handler JsString := do
  let uname ← sync (uname case body.username)
  if ¬ usernameRegex uname then
    throw (.apiError 400 "Invalid username. Use 3-30 characters: letters, numbers, _ or -")
  else
    match ← Program.attempt (perform (.findOne body.email uname)) with
    | some existing =>
      if (Value.json (.str existing.email)).strictEq body.email then
        throw (.apiError 400 "User with this email already exists")
      else throw (.apiError 400 "Username already taken")
    | none => pure uname

theorem tryRegistration_eq (case : CaseMapping) (production : Bool) (body : RegistrationBody) :
    tryRegistration case production body = (checks case body).bind fun username =>
      storeUser production username body.email body.password := by
  unfold tryRegistration checks
  cases uname case body.username with
  | error e => rfl
  | ok username =>
    simp only [sync, Program.bind_eq, Program.bind_ok]
    split
    · rfl
    · rw [Program.bind_assoc]
      congr 1
      funext found
      cases found with
      | none => rfl
      | some existing =>
        dsimp only
        split <;> rfl

/-- The checks only look for a user, and let proper usernames through. -/
theorem checks_spec (case : CaseMapping) (body : RegistrationBody) :
    (checks case body).Issues Local ∧
      (checks case body).Ends fun r => ∀ username, r = .ok username →
        usernameRegex username = true := by
  unfold checks
  cases uname case body.username with
  | error e => exact ⟨trivial, fun _ h => by cases h⟩
  | ok username =>
    simp only [sync, Program.bind_eq, Program.bind_ok]
    split
    · exact ⟨trivial, fun _ h => by cases h⟩
    · rename_i hregex
      refine ⟨⟨trivial, fun answer => ?_⟩, fun answer => ?_⟩
      · rcases answer with _ | _ | existing
        · trivial
        · trivial
        · dsimp only [Program.bind_ok]
          split <;> trivial
      · rcases answer with _ | _ | existing
        · exact fun _ h => by cases h
        · rintro _ ⟨⟩
          exact not_not.mp hregex
        · dsimp only [Program.bind_ok]
          split
          · exact fun _ h => by cases h
          · exact fun _ h => by cases h

theorem safe_storeUser (production : Bool) {username : JsString}
    (husername : usernameRegex username = true) (password : Value) {w : World ι}
    (hinv : Announced lib emails t w) (hw : Fresh i w) :
    Safe (exec lib) Anything (announcing lib emails t) i (Tries lib i (emails i))
      (storeUser production username (emails i) password) w := by
  have hissues : (Program.attempt (perform (.hash password))).Issues Local :=
    ⟨trivial, fun _ => trivial⟩
  have hhash : Safe (exec lib) Anything (announcing lib emails t) i (fun _ w => Fresh i w)
      (Program.attempt (perform (.hash password))) w :=
    safe_of_local (fun h => h.same) hissues (Program.ends_anything _) (fun _ _ _ hw => hw) hw
  refine hhash.bind (fun hash u hu hfresh => ?_) (fun e u _ hfresh => hfresh) hinv
  refine (safe_save husername hfresh).bind (fun user v hv hsaved => ?_)
    (fun e v _ hfresh => hfresh) hu
  have hemail : user.email = emails i := hsaved.1
  exact safe_welcome production hemail hv hsaved.2

/-- A registration leaves its row and, unless the broker refuses it, its event behind exactly
when it answers, whatever the others do. -/
theorem safe_registration (case : CaseMapping) (production : Bool) (body : RegistrationBody)
    (hemail : body.email = emails i) {w : World ι} (hinv : Announced lib emails t w)
    (hw : Fresh i w) :
    Safe (exec lib) Anything (announcing lib emails t) i (Leaves lib i (emails i))
      (registration case production body) w := by
  obtain ⟨hissues, hends⟩ := checks_spec case body
  have hchecks : Safe (exec lib) Anything (announcing lib emails t) i
      (fun r w => (∀ username, r = .ok username → usernameRegex username = true) ∧ Fresh i w)
      (checks case body) w :=
    safe_of_local (fun h => h.same) hissues hends (fun _ _ hr hw => ⟨hr, hw⟩) hw
  have htry : Safe (exec lib) Anything (announcing lib emails t) i (Tries lib i (emails i))
      (tryRegistration case production body) w := by
    rw [tryRegistration_eq, hemail]
    refine hchecks.bind (fun username u hu hchecked => ?_) (fun e u _ hchecked => hchecked.2) hinv
    exact safe_storeUser production (hchecked.1 username rfl) body.password hu hchecked.2
  refine htry.tryCatch (fun result u _ hleaves => hleaves) (fun e u _ hfresh => ?_) hinv
  exact fun v huv _ => hfresh.same huv

end Requests

section Runs

variable {ι : Type} {rules : EmailRules}

/-- Requests before their first statements. -/
def start (case : CaseMapping) (production : Bool) (bodies : ι → ValidBody rules) (t : Table) :
    Pool ι Ans JsError HttpResult (World ι) :=
  ⟨⟨⟨t, []⟩, [], []⟩, fun i => registration case production (bodies i).toRegistrationBody⟩

def addresses (bodies : ι → ValidBody rules) (i : ι) : Value := (bodies i).email

variable [DecidableEq ι] {lib : Libraries} {case : CaseMapping} {production : Bool}
  {bodies : ι → ValidBody rules} {t : Table} {q : Pool ι Ans JsError HttpResult (World ι)}

theorem announced_start (ht : ∀ u ∈ t.rows, usernameRegex u.username = true) :
    Announced lib (addresses bodies) t (start case production bodies t).shared :=
  ⟨⟨(List.append_nil _).symm, ht⟩, fun _ => .inl rfl⟩

theorem safe_start (ht : ∀ u ∈ t.rows, usernameRegex u.username = true) (i : ι) :
    Safe (exec lib) Anything (announcing lib (addresses bodies) t) i
      (Leaves lib i (addresses bodies i)) ((start case production bodies t).threads i)
      (start case production bodies t).shared :=
  have hemail : (bodies i).email = addresses bodies i := rfl
  safe_registration case production _ hemail (announced_start ht) ⟨rfl, rfl, List.not_mem_nil⟩

/-- In every interleaving of validated registrations, only stored rows are announced. -/
theorem announced_run (ht : ∀ u ∈ t.rows, usernameRegex u.username = true)
    (run : Steps (exec lib) Anything (start case production bodies t) q) :
    Announced lib (addresses bodies) t q.shared :=
  (run.safe (announced_start ht) (safe_start ht)).1

theorem leaves_run (ht : ∀ u ∈ t.rows, usernameRegex u.username = true)
    (run : Steps (exec lib) Anything (start case production bodies t) q) {i : ι}
    {r : Except JsError HttpResult} (hresult : q.result i = some r) :
    Leaves lib i (addresses bodies i) r q.shared :=
  run.post (announced_start ht) (safe_start ht) hresult

omit [DecidableEq ι] in
variable (lib) in
theorem effect_published (i : ι) (c : Conditions) (op : Op) (w : World ι) :
    w.published ⊆ (effect lib i c op w).2.published := by
  cases op with
  | sendToQueue payload =>
    simp only [effect, publish]
    cases c.sendToQueue with
    | ok answer => exact List.subset_append_left _ _
    | error e => exact List.Subset.refl _
  | _ => exact List.Subset.refl _

/-- What the broker has accepted stays accepted. -/
theorem published_step {q q' : Pool ι Ans JsError HttpResult (World ι)} {i : ι} {c : Conditions}
    (step : q.step (exec lib) i c = some q') : q.shared.published ⊆ q'.shared.published := by
  obtain ⟨op, next, a, w, -, hexec, rfl⟩ := Pool.step_eq_some step
  have hpublished := effect_published lib i c op q.shared
  rwa [Option.some.inj hexec] at hpublished

theorem mem_publishedBy {w : World ι} {i : ι} {payload : EventPayload} :
    payload ∈ w.publishedBy i ↔ (i, payload) ∈ w.published := by
  simp [World.publishedBy]

/-- A user has been added by one request only. -/
theorem Announced.request_unique {emails : ι → Value} {w : World ι} (h : Announced lib emails t w)
    {i j : ι} {u v : User} (hi : w.database.addedBy i = [u]) (hj : w.database.addedBy j = [v])
    (hid : u.id = v.id) : i = j := by
  have hnodup : (w.database.journal.map fun entry => entry.2.id).Nodup := by
    have hrows := w.database.users.ids_nodup
    rw [h.journalled.rows, List.map_append, List.nodup_append, List.map_map] at hrows
    exact hrows.2.1
  have hmem : ∀ {k : ι} {x : User}, w.database.addedBy k = [x] → (k, x) ∈ w.database.journal := by
    intro k x hk
    have hx : x ∈ w.database.addedBy k := by
      rw [hk]
      exact List.mem_cons_self
    simpa [Database.addedBy] using hx
  exact congrArg Prod.fst (List.inj_on_of_nodup_map hnodup (hmem hi) (hmem hj) hid)

end Runs

end ChatMicroservices.RegistrationEvents

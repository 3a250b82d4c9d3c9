import ChatMicroservices.BundleOutcomes
import ChatMicroservices.PrekeyReuse

/-!
# What one request does in a session

The outcomes of the four requests as one relation between the tables before and after. A
request changes the record of at most one device, and only a request that is answered with
status 200 changes anything.
-/

namespace ChatMicroservices.PrekeySessions
open JavaScriptValues SequentialPrograms PrekeyBundles PrekeyDatabase PrekeyController
open PrekeyValidation PrekeyDevices PrekeyRequests PrekeyOutcomes BundleOutcomes

abbrev Log : Type := List (Entry Request (List Answer) Table)

/-- A session of requests that meet the condition `ok`, from the table `t₀`. -/
abbrev PrekeySession (c : Course) (ok : Table → Request → Prop) (t₀ : Table) :
    Log → ℕ → Table → Prop :=
  Session (serve c.conditions) ok t₀

/-- Any request in any state. -/
def AnyRequest : Table → Request → Prop := fun _ _ => True

instance (t : Table) (request : Request) : Decidable (AnyRequest t request) :=
  inferInstanceAs (Decidable True)

/-- The requests that store what the client sends. -/
def Request.stores : Request → Bool
  | .postPrekeys _ _ | .storeSignalKeys _ _ => true
  | .getPrekeyBundle _ | .getSignalKeys _ _ => false

/-- What a request that starts at moment `n` does with the table `t`. -/
inductive Step (c : Course) (n : ℕ) (t : Table) : Request → List Answer → ℕ → Table → Prop where
  | idle {request answers m}
      (hrefused : Request.stores request = true → answers.any Answer.isOk = false) :
      Step c n t request answers m t
  | published {u d body bundle text m t'} (accepted : PublishAccepted c body d bundle)
      (puts : Puts t (u, d) (afterPublish (devices t (u, d)) bundle) t') :
      Step c n t (.postPrekeys u body) [.message 200 text] m t'
  | consumed {u d old answer result remaining m t'} (hold : devices t (u, d) = some old)
      (hpublished : isPrekeyBundle old.bundle = .ok true)
      (hconsume : consumeOneTimePreKey old.bundle = .ok result)
      (hstored : result.storedBundle = some (withPreKeys old.bundle remaining))
      (puts : Puts t (u, d) (afterConsumption old remaining) t') :
      Step c n t (.getPrekeyBundle u) [.bundle u d answer] m t'
  | backedUp {userId u d body text k m t'} (accepted : BackupAccepted c userId body u d)
      (hk : n ≤ k) (hm : k < m)
      (rate : ∀ last, backupTime (devices t (u, d)) = some last →
        last + backupInterval ≤ c.now k)
      (puts : Puts t (u, d) (afterBackup (devices t (u, d))
        (body.field "encryptedBundle").column (c.now k)) t') :
      Step c n t (.storeSignalKeys userId body) [.message 200 text] m t'

section Steps

variable {c : Course} {n m : ℕ} {t t' : Table} {request : Request} {answers : List Answer}

theorem serve_step (ht : Regular t)
    (h : serve c.conditions request n t = some (answers, m, t')) :
    Step c n t request answers m t' := by
  cases request with
  | postPrekeys u body =>
    cases (postPrekeys_serves c u body n ht).apply h with
    | refused hanswers => exact .idle fun _ => List.any_eq_false.mpr (by simpa using hanswers)
    | stored accepted puts => exact .published accepted puts
  | getPrekeyBundle u =>
    cases (getPrekeyBundle_serves c.conditions u n ht).apply h with
    | refused hanswers reason => exact .idle fun h => by cases h
    | missing h => exact .idle fun h => by cases h
    | served chosen hconsume remains =>
      obtain ⟨hr, hpublished⟩ := chosenBundle_some chosen
      unfold Remains at remains
      split at remains
      · rename_i bundle hc hb
        obtain ⟨remaining, rfl⟩ := storedBundle_eq hconsume hb
        obtain ⟨hrow, rfl⟩ := PrekeyPools.mem_listing.mp hr
        exact .consumed (devices_of_mem ht hrow) hpublished hconsume hb remains
      · subst remains
        exact .idle fun h => by cases h
  | storeSignalKeys userId body =>
    cases (storeSignalKeys_serves c userId body n ht).apply h with
    | refused hanswers reason =>
      refine .idle fun _ => List.any_eq_false.mpr fun a ha => ?_
      obtain ⟨x, rfl⟩ := hanswers a ha
      simp [Answer.isOk]
    | stored accepted hk hm rate puts => exact .backedUp accepted hk hm rate puts
  | getSignalKeys userId deviceId =>
    obtain ⟨rfl, -⟩ := (getSignalKeys_serves c userId deviceId n ht).apply h
    exact .idle fun h => by cases h

theorem Step.regular (h : Step c n t request answers m t') (ht : Regular t) : Regular t' := by
  cases h with
  | idle _ => exact ht
  | published _ puts => exact puts.regular
  | consumed _ _ _ _ puts => exact puts.regular
  | backedUp _ _ _ _ puts => exact puts.regular

/-- The table changes only when the answer has status 200. -/
theorem Step.status (h : Step c n t request answers m t') :
    t' = t ∨ ∀ a ∈ answers, Answer.status a = 200 := by
  cases h with
  | idle _ => exact .inl rfl
  | published _ _ => exact .inr (by simp [Answer.status])
  | consumed _ _ _ _ _ => exact .inr (by simp [Answer.status])
  | backedUp _ _ _ _ _ => exact .inr (by simp [Answer.status])

/-- No handler waits for ever. -/
theorem serve_total (c : Course) (request : Request) (n : ℕ) (ht : Regular t) :
    ∃ answers m t', serve c.conditions request n t = some (answers, m, t') := by
  have hany : ∀ {Q}, Serves c.conditions request.handler Q n t →
      ∃ answers m t', serve c.conditions request n t = some (answers, m, t') := by
    intro Q h
    obtain ⟨answers, m, t', hserve, -⟩ := serves_iff.mp h
    exact ⟨answers, m, t', hserve⟩
  cases request with
  | postPrekeys u body => exact hany (postPrekeys_serves c u body n ht)
  | getPrekeyBundle u => exact hany (getPrekeyBundle_serves c.conditions u n ht)
  | storeSignalKeys userId body => exact hany (storeSignalKeys_serves c userId body n ht)
  | getSignalKeys userId deviceId => exact hany (getSignalKeys_serves c userId deviceId n ht)

end Steps

theorem session_regular {c : Course} {ok : Table → Request → Prop} {t₀ : Table} (h₀ : Regular t₀)
    {log : Log} {n : ℕ} {t : Table} (h : PrekeySession c ok t₀ log n t) : Regular t := by
  induction h with
  | start => exact h₀
  | serve _ _ served ih => exact (serve_step ih served).regular ih

/-- The bundle that an entry of the log has published for the device. -/
def publicationOf (c : Course) (u d : JsString) (x : Entry Request (List Answer) Table) :
    Option Json :=
  match x.request with
  | .postPrekeys userId body =>
    if userId = u ∧ c.asText (body.field "deviceId") = some d ∧ x.answer.any Answer.isOk then
      some (body.field "bundle").column
    else none
  | .getPrekeyBundle _ | .storeSignalKeys _ _ | .getSignalKeys _ _ => none

/-- If the request is a publication that will be accepted, its user, its device and its
bundle have the property. -/
def IfPublishes (c : Course) (P : JsString → JsString → Json → Prop) : Request → Prop
  | .postPrekeys u body =>
    match c.asText (body.field "deviceId"), body.field "bundle" with
    | some d, .json bundle => publishPrekeyValidation body = [] → P u d bundle
    | _, _ => True
  | .getPrekeyBundle _ | .storeSignalKeys _ _ | .getSignalKeys _ _ => True

instance (c : Course) (P : JsString → JsString → Json → Prop) [∀ u d b, Decidable (P u d b)]
    (request : Request) : Decidable (IfPublishes c P request) := by
  unfold IfPublishes
  split
  · split <;> infer_instance
  all_goals infer_instance

theorem IfPublishes.accepted {c : Course} {P : JsString → JsString → Json → Prop}
    {u d : JsString} {body : Value} {bundle : Json} (h : IfPublishes c P (.postPrekeys u body))
    (haccepted : PublishAccepted c body d bundle) : P u d bundle := by
  simp only [IfPublishes, haccepted.device, haccepted.bundle] at h
  exact h haccepted.valid

/-- The backup that an entry of the log has stored for the device. -/
def backupOf (c : Course) (u d : JsString) (x : Entry Request (List Answer) Table) :
    Option Json :=
  match x.request with
  | .storeSignalKeys userId body =>
    if userId = some u ∧ c.asText (body.field "deviceId") = some d ∧ x.answer.any Answer.isOk then
      some (body.field "encryptedBundle").column
    else none
  | .postPrekeys _ _ | .getPrekeyBundle _ | .getSignalKeys _ _ => none

/-- The entry is a backup of the device that was answered with 200. -/
def BackedUp (c : Course) (u d : JsString) (x : Entry Request (List Answer) Table) : Prop :=
  (backupOf c u d x).isSome

instance (c : Course) (u d : JsString) : DecidablePred (BackedUp c u d) := fun x =>
  inferInstanceAs (Decidable ((backupOf c u d x).isSome = true))

/-- What a step does to the record of one device. -/
inductive DeviceStep (c : Course) (n m : ℕ) (u d : JsString) (t' : Table) :
    Request → List Answer → Option Record → Option Record → Prop where
  | other {request answers old}
      (hbackup : backupOf c u d ⟨request, n, m, answers, t'⟩ = none)
      (hpublication : publicationOf c u d ⟨request, n, m, answers, t'⟩ = none) :
      DeviceStep c n m u d t' request answers old old
  | published {body bundle answers old} (accepted : PublishAccepted c body d bundle)
      (hpublication : publicationOf c u d ⟨.postPrekeys u body, n, m, answers, t'⟩ =
        some bundle) :
      DeviceStep c n m u d t' (.postPrekeys u body) answers old (some (afterPublish old bundle))
  | consumed {answers old result remaining} (hpublished : isPrekeyBundle old.bundle = .ok true)
      (hconsume : consumeOneTimePreKey old.bundle = .ok result)
      (hstored : result.storedBundle = some (withPreKeys old.bundle remaining)) :
      DeviceStep c n m u d t' (.getPrekeyBundle u) answers (some old)
        (some (afterConsumption old remaining))
  | backedUp {userId body answers old k} (accepted : BackupAccepted c userId body u d)
      (hk : n ≤ k) (hm : k < m) (hbackup : backupOf c u d
        ⟨.storeSignalKeys userId body, n, m, answers, t'⟩ =
          some (body.field "encryptedBundle").column)
      (rate : ∀ last, backupTime old = some last → last + backupInterval ≤ c.now k) :
      DeviceStep c n m u d t' (.storeSignalKeys userId body) answers old
        (some (afterBackup old (body.field "encryptedBundle").column (c.now k)))

theorem Step.device {c : Course} {n m : ℕ} {t t' : Table} {request : Request}
    {answers : List Answer} (h : Step c n t request answers m t') (u d : JsString) :
    DeviceStep c n m u d t' request answers (devices t (u, d)) (devices t' (u, d)) := by
  cases h with
  | idle hrefused =>
    cases request with
    | postPrekeys _ _ => exact .other rfl (by simp [publicationOf, hrefused rfl])
    | storeSignalKeys _ _ => exact .other (by simp [backupOf, hrefused rfl]) rfl
    | getPrekeyBundle _ | getSignalKeys _ _ => exact .other rfl rfl
  | @published u' d' _ _ _ _ _ accepted puts =>
    rw [puts.devices]
    by_cases hp : (u, d) = (u', d')
    · obtain ⟨rfl, rfl⟩ := Prod.mk.inj hp
      rw [Function.update_self]
      refine .published accepted ?_
      simp [publicationOf, accepted.device, accepted.bundle, Answer.isOk, Value.column]
    · rw [Function.update_of_ne hp]
      refine .other rfl ?_
      simp only [publicationOf, accepted.device, Option.some.injEq]
      exact if_neg fun h => hp (Prod.ext h.1.symm h.2.1.symm)
  | @consumed u' d' old _ _ _ _ _ hold hpublished hconsume hstored puts =>
    rw [puts.devices]
    by_cases hp : (u, d) = (u', d')
    · obtain ⟨rfl, rfl⟩ := Prod.mk.inj hp
      rw [Function.update_self, hold]
      exact .consumed hpublished hconsume hstored
    · rw [Function.update_of_ne hp]
      exact .other rfl rfl
  | @backedUp _ u' d' body text k _ _ accepted hk hm rate puts =>
    rw [puts.devices]
    by_cases hp : (u, d) = (u', d')
    · obtain ⟨rfl, rfl⟩ := Prod.mk.inj hp
      rw [Function.update_self]
      refine .backedUp accepted hk hm ?_ rate
      simp [backupOf, accepted.user, accepted.device, Answer.isOk]
    · rw [Function.update_of_ne hp]
      refine .other ?_ rfl
      simp only [backupOf, accepted.user, accepted.device, Option.some.injEq]
      exact if_neg fun h => hp (Prod.ext h.1.symm h.2.1.symm)

/-- The database works, every key is new, and a millisecond passes with each effect. -/
def steady : Course where
  conditions n := { PrekeyConservation.calm with
    now := n
    newId := js (toString n) }
  asText := PrekeyConservation.calm.asText
  reads _ := rfl
  clock _ _ h := h

/-- The body of a publication. -/
def publication (deviceId : String) (bundle : Json) : Value :=
  .json (.obj [(js "deviceId", .str (js deviceId)), (js "bundle", bundle)])

end ChatMicroservices.PrekeySessions

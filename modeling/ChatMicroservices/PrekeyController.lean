import ChatMicroservices.PrekeyDatabase

/-!
# The prekey handlers

`getPrekeyBundle` hands out a bundle with at most one one-time prekey, inside a transaction
that locks the rows of the user. `storeSignalKeys` and `publishPrekey` find a row and save
it, with no lock in between. Audit lines and metrics have no effect that a handler can
observe.
-/

namespace ChatMicroservices.PrekeyController
open JavaScriptValues JavaScriptOperators EffectPrograms PrekeyBundles PrekeyDatabase

/-- Synchronous code, which returns or throws. -/
@[simp] def sync {α : Type} (r : Except JsError α) : Handler α := .done r

/-- `const { key } = req.body` -/
def readField (body : Value) (key : String) : Handler Value :=
  sync (body.destructure "req.body" key)

/-- `save` of an entity that has an id: the columns that differ from the stored row. -/
def save (manager : Manager) (entity : Prekey) : Handler Unit := do
  let stored ← Program.attempt (perform (.reread manager entity.id))
  match stored with
  | none =>
    Program.attempt (perform (.insert manager (some entity.id)
      ⟨entity.userId, .json (.str entity.deviceId), entity.bundle, entity.lastBackupTimestamp⟩))
  | some stored =>
    if changesFrom entity stored = PrekeyChanges.none then pure ()
    else Program.attempt (perform (.update manager entity.id (changesFrom entity stored)))

/-- `Array.prototype.find` with a callback that can throw. -/
def find (p : Prekey → Except JsError Bool) : List Prekey → Except JsError (Option Prekey)
  | [] => .ok none
  | b :: bundles => do
    if ← p b then pure (some b) else find p bundles

/-- `isPrekeyBundle(b.bundle) && b.bundle.preKeys.length > 0` -/
def hasOneTimePreKey (b : Prekey) : Except JsError Bool := do
  if ← isPrekeyBundle b.bundle then
    let preKeys ← (Value.json b.bundle).get "preKeys"
    let length ← lengthOf preKeys
    isPositive length
  else pure false

/-- A published bundle, if possible one that still has a one-time prekey. -/
def chosenBundle (bundles : List Prekey) : Except JsError (Option Prekey) := do
  match ← find hasOneTimePreKey bundles with
  | some b => pure (some b)
  | none => find (fun b => isPrekeyBundle b.bundle) bundles

def noBundle : Handler Unit := do
  Program.attempt (perform .commitTransaction)
  perform (.respond (.next (.apiError 404 "No prekey bundle found for user")))

def respondBundle (chosen : Prekey) (bundle : ClientBundle) : Handler Unit := do
  Program.attempt (perform .commitTransaction)
  perform (.respond (.bundle chosen.userId chosen.deviceId bundle))

def consumeFrom (chosen : Prekey) : Handler Unit := do
  let result ← sync (consumeOneTimePreKey chosen.bundle)
  match result.consumed, result.storedBundle with
  | true, some storedBundle => do
    save .queryRunner { chosen with bundle := storedBundle }
    respondBundle chosen result.clientBundle
  | _, _ => respondBundle chosen result.clientBundle

/-- The body of the `try` block. -/
def handOut (userId : JsString) : Handler Unit := do
  let bundles ← Program.attempt (perform (.lockRows userId))
  if bundles = [] then noBundle
  else do
    let chosen ← sync (chosenBundle bundles)
    match chosen with
    | none => noBundle
    | some chosen => do
      let published ← sync (isPrekeyBundle chosen.bundle)
      if published then consumeFrom chosen else noBundle

def rollbackAndForward (error : JsError) : Handler Unit := do
  Program.tryCatch (Program.attempt (perform .rollbackTransaction)) fun _ => pure ()
  perform (.respond (.next error))

/-- The query runner is connected before the `try` block, so a failure there is not passed
to `next`. -/
def getPrekeyBundle (userId : JsString) : Handler Unit :=
  if userId = [] then perform (.respond (.next (.apiError 400 "userId is required")))
  else do
    Program.attempt (perform .connect)
    Program.attempt (perform .startTransaction)
    Program.tryFinally (Program.tryCatch (handOut userId) rollbackAndForward)
      (Program.attempt (perform .release))

/-- The rate limit, in hours since the last backup. -/
def checkRate (lastBackupTimestamp : Option ℕ) : Handler Unit := do
  match lastBackupTimestamp with
  | none => pure ()
  | some last => do
    let now ← perform .now
    let hoursSinceLastBackup : ℚ := ((now : ℚ) - last) / (1000 * 60 * 60)
    if hoursSinceLastBackup < 24 then
      let hoursRemaining := ⌈24 - hoursSinceLastBackup⌉
      throw (.apiError 429
        s!"Rate limit: Please wait {hoursRemaining} hours before backing up keys again")
    else pure ()

def checkBackup (deviceId encryptedBundle : Value) : Except JsError Unit :=
  if ¬ deviceId.truthy ∨ ¬ encryptedBundle.truthy then
    .error (.apiError 400 "deviceId and encryptedBundle are required")
  else if ¬ ["encrypted", "iv", "salt", "version"].all
      fun key => (encryptedBundle.field key).truthy then
    .error (.apiError 400 "Invalid encrypted bundle format")
  else if ¬ (encryptedBundle.field "deviceId").strictEq deviceId then
    .error (.apiError 400 "Device ID mismatch")
  else .ok ()

def storeBackup (userId : JsString) (deviceId encryptedBundle : Value) : Handler Unit := do
  sync (checkBackup deviceId encryptedBundle)
  let existing ← Program.attempt (perform (.findOne userId deviceId))
  match existing with
  | some existing => do
    checkRate existing.lastBackupTimestamp
    let now ← perform .now
    save .dataSource { existing with
      bundle := withBackup existing.bundle encryptedBundle.column
      lastBackupTimestamp := some now }
    perform (.respond (.message 200 "Encrypted keys updated"))
  | none => do
    let now ← perform .now
    Program.attempt (perform (.insert .dataSource none
      ⟨userId, deviceId, withBackup (.obj []) encryptedBundle.column, some now⟩))
    perform (.respond (.message 200 "Encrypted keys stored"))

/-- The body of the request is taken apart before the `try` block. -/
def storeSignalKeys (userId : Option JsString) (body : Value) : Handler Unit := do
  let deviceId ← readField body "deviceId"
  let encryptedBundle ← readField body "encryptedBundle"
  Program.tryCatch
    (match userId with
    | none | some [] => throw (.apiError 401 "Authentication required")
    | some userId => storeBackup userId deviceId encryptedBundle)
    fun error => perform (.respond (.next error))

def fetchKeys (userId : JsString) (deviceId : Value) : Handler Unit := do
  if ¬ deviceId.truthy then throw (.apiError 400 "deviceId is required")
  else do
    let record ← Program.attempt (perform (.findLatest userId deviceId))
    match record with
    | none => perform (.respond (.message 404 "Operation failed"))
    | some record =>
      let encryptedBundle := (Value.json record.bundle).field "_encryptedKeyBundle"
      if encryptedBundle.truthy then perform (.respond (.keys record.deviceId encryptedBundle))
      else perform (.respond (.message 404 "Operation failed"))

def getSignalKeys (userId : Option JsString) (deviceId : Value) : Handler Unit :=
  Program.tryCatch
    (match userId with
    | none | some [] => throw (.apiError 401 "Authentication required")
    | some userId => fetchKeys userId deviceId)
    fun error => perform (.respond (.next error))

def storeBundle (userId : JsString) (deviceId bundle : Value) : Handler Unit := do
  let existing ← Program.attempt (perform (.findOne userId deviceId))
  match existing with
  | some existing => do
    save .dataSource { existing with bundle := merge existing.bundle bundle.column }
    perform (.respond (.message 200 "Prekey bundle updated"))
  | none => do
    Program.attempt (perform (.insert .dataSource none ⟨userId, deviceId, bundle.column, none⟩))
    perform (.respond (.message 200 "Prekey bundle published"))

/-- Here the body is taken apart inside the `try` block. -/
def publishPrekey (userId : Option JsString) (body : Value) : Handler Unit :=
  Program.tryCatch
    (do
      let deviceId ← readField body "deviceId"
      let bundle ← readField body "bundle"
      match userId with
      | none | some [] => throw (.apiError 401 "Authentication required")
      | some userId =>
        if ¬ deviceId.truthy ∨ ¬ bundle.truthy then
          throw (.apiError 400 "deviceId and bundle are required")
        else storeBundle userId deviceId bundle)
    fun error => perform (.respond (.next error))

/-- The bundle of the row still has a one-time prekey. -/
def Stocked (r : Prekey) : Bool := poolOf r.bundle ≠ []

theorem hasOneTimePreKey_eq {r : Prekey} (h : WellFormed r.bundle) :
    hasOneTimePreKey r = .ok (Stocked r) := by
  rcases h.cases with ⟨hb, hpool⟩ | ⟨fields, hr, hl, hb⟩
  · simp [hasOneTimePreKey, hb, Stocked, hpool, bind, Except.bind, pure, Except.pure]
  · have hkeys : (Value.json r.bundle).get "preKeys" =
        .ok (.json (.arr (poolOf r.bundle))) := by
      rw [hr] at hl ⊢
      rw [Value.get_of_not_nullish (by simp [Value.Nullish])]
      simp [Value.field, hl]
    have hpos : positive (.finite ((poolOf r.bundle).length : ℚ)) = Stocked r := by
      cases hp : poolOf r.bundle with
      | nil => simp [positive, Stocked, hp]
      | cons k ks =>
        have hlt : (0 : ℚ) < ((k :: ks).length : ℕ) := by
          exact_mod_cast Nat.succ_pos ks.length
        simpa [positive, Stocked, hp] using hlt
    simp [hasOneTimePreKey, hb, hkeys, lengthOf, bind, Except.bind, hpos]

theorem find_eq {p : Prekey → Except JsError Bool} {q : Prekey → Bool} {rows : List Prekey}
    (h : ∀ r ∈ rows, p r = .ok (q r)) : find p rows = .ok (rows.find? q) := by
  induction rows with
  | nil => rfl
  | cons r rows ih =>
    have hr := h r List.mem_cons_self
    have hrest := ih fun r' hr' => h r' (List.mem_cons_of_mem r hr')
    cases hq : q r <;> simp [find, hr, hq, hrest, bind, Except.bind, pure, Except.pure]

/-- The bundle of the row is published. -/
def Published (r : Prekey) : Bool := isPrekeyBundle r.bundle = .ok true

/-- If no test throws, the choice falls on the first row with a prekey, and otherwise on the
first published row. -/
theorem chosenBundle_eq {rows : List Prekey}
    (hstocked : ∀ r ∈ rows, hasOneTimePreKey r = .ok (Stocked r))
    (hpublished : ∀ r ∈ rows, ∃ published, isPrekeyBundle r.bundle = .ok published) :
    chosenBundle rows = .ok ((rows.find? Stocked).or (rows.find? Published)) := by
  have htest : ∀ r ∈ rows, isPrekeyBundle r.bundle = .ok (Published r) := by
    intro r hr
    obtain ⟨published, hp⟩ := hpublished r hr
    cases published <;> simp [Published, hp]
  cases hs : rows.find? Stocked <;>
    simp [chosenBundle, find_eq hstocked, find_eq htest, hs, bind, Except.bind, pure, Except.pure]

theorem chosenBundle_wellFormed {rows : List Prekey} (h : ∀ r ∈ rows, WellFormed r.bundle) :
    chosenBundle rows = .ok ((rows.find? Stocked).or (rows.find? Published)) :=
  chosenBundle_eq (fun r hr => hasOneTimePreKey_eq (h r hr)) fun r hr => (h r hr).isPrekeyBundle_ok

/-- Among well-formed rows the first one with a prekey is chosen. -/
theorem chosenBundle_stocked {rows : List Prekey} (h : ∀ r ∈ rows, WellFormed r.bundle)
    {c : Prekey} (hc : rows.find? Stocked = some c) : chosenBundle rows = .ok (some c) := by
  rw [chosenBundle_wellFormed h, hc, Option.some_or]

/-- If no row has a prekey, the choice falls on a published row or on none. -/
theorem chosenBundle_exhausted {rows : List Prekey} (h : ∀ r ∈ rows, WellFormed r.bundle)
    (hn : rows.find? Stocked = none) :
    ∃ c, chosenBundle rows = .ok c ∧ ∀ r ∈ c, r ∈ rows := by
  refine ⟨rows.find? Published, ?_, fun r hr => List.mem_of_find?_eq_some hr⟩
  rw [chosenBundle_wellFormed h, hn, Option.none_or]

end ChatMicroservices.PrekeyController

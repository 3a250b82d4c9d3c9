import ChatMicroservices.ConcurrentPrograms
import ChatMicroservices.KeyedTables
import ChatMicroservices.OrderedPools
import ChatMicroservices.PrekeyBundles
import ChatMicroservices.StoredTexts

/-!
# The `prekeys` table under concurrent requests

The requests of the user service share one table. A request outside a transaction commits
with every statement; a query runner collects its writes until it commits. `FOR UPDATE`
locks every row it lists and waits while another request holds one of them, and so does an
`UPDATE`; other queries do not wait. The order of commits and the answers are recorded. What
is written to the column `bundle` is what a json column holds for it.
-/

namespace ChatMicroservices.PrekeyDatabase
open JavaScriptValues EffectPrograms ConcurrentPrograms KeyedTables PrekeyBundles OrderedPools
open JsonColumns StoredTexts

structure Prekey where
  id : JsString
  userId : JsString
  deviceId : JsString
  bundle : Json
  lastBackupTimestamp : Option ℕ
  createdAt : ℕ
  updatedAt : ℕ
  deriving DecidableEq

abbrev Table := KeyedTable Prekey.id

/-- An entity that has not been stored yet. -/
structure NewPrekey where
  userId : JsString
  deviceId : Value
  bundle : Json
  lastBackupTimestamp : Option ℕ
  deriving DecidableEq

/-- The columns that an `UPDATE` sets. No handler assigns the owner or the device of a row. -/
structure PrekeyChanges where
  bundle : Option Json
  lastBackupTimestamp : Option (Option ℕ)
  deriving DecidableEq

namespace PrekeyChanges

def none : PrekeyChanges := ⟨.none, .none⟩

def apply (changes : PrekeyChanges) (now : ℕ) (r : Prekey) : Prekey :=
  { r with
    bundle := (changes.bundle.map stored).getD r.bundle
    lastBackupTimestamp := changes.lastBackupTimestamp.getD r.lastBackupTimestamp
    updatedAt := now }

@[simp] theorem apply_id (changes : PrekeyChanges) (now : ℕ) (r : Prekey) :
    (changes.apply now r).id = r.id := rfl

@[simp] theorem apply_userId (changes : PrekeyChanges) (now : ℕ) (r : Prekey) :
    (changes.apply now r).userId = r.userId := rfl

@[simp] theorem apply_deviceId (changes : PrekeyChanges) (now : ℕ) (r : Prekey) :
    (changes.apply now r).deviceId = r.deviceId := rfl

@[simp] theorem apply_createdAt (changes : PrekeyChanges) (now : ℕ) (r : Prekey) :
    (changes.apply now r).createdAt = r.createdAt := rfl

@[simp] theorem apply_bundle (changes : PrekeyChanges) (now : ℕ) (r : Prekey) :
    (changes.apply now r).bundle = (changes.bundle.map stored).getD r.bundle := rfl

end PrekeyChanges

/-- The columns in which an entity differs from the stored row. For TypeORM bundles whose
properties are in another order do not differ; no reader of a bundle sees their order. -/
def changesFrom (entity stored : Prekey) : PrekeyChanges where
  bundle := differing entity.bundle stored.bundle
  lastBackupTimestamp := differing entity.lastBackupTimestamp stored.lastBackupTimestamp

/-- The rows of a user, the latest first; rows of the same time keep their order. -/
def listing (userId : JsString) (rows : List Prekey) : List Prekey :=
  (rows.filter fun r => r.userId = userId).insertionSort fun a b => b.createdAt ≤ a.createdAt

/-- An entry of `errors` in the answer to an invalid request. -/
structure FieldError where
  field : String
  message : String
  deriving DecidableEq

inductive Answer where
  | bundle (userId deviceId : JsString) (bundle : ClientBundle)
  | keys (deviceId : JsString) (encryptedBundle : Value)
  | invalid (errors : List FieldError)
  | message (status : ℕ) (message : String)
  | next (error : JsError)
  deriving DecidableEq

/-- Where a statement runs: on a connection of its own, or in the query runner. -/
inductive Manager where
  | dataSource | queryRunner
  deriving DecidableEq

inductive Op where
  | connect
  | startTransaction
  | commitTransaction
  | rollbackTransaction
  | release
  | lockRows (userId : JsString)
  | findOne (userId : JsString) (deviceId : Value)
  | findLatest (userId : JsString) (deviceId : Value)
  | reread (manager : Manager) (id : JsString)
  | insert (manager : Manager) (id : Option JsString) (row : NewPrekey)
  | update (manager : Manager) (id : JsString) (changes : PrekeyChanges)
  | now
  | respond (answer : Answer)
  deriving DecidableEq

@[reducible] def Ans : Op → Type
  | .connect | .startTransaction | .commitTransaction | .rollbackTransaction | .release =>
    Except JsError Unit
  | .lockRows _ => Except JsError (List Prekey)
  | .findOne _ _ | .findLatest _ _ | .reread _ _ => Except JsError (Option Prekey)
  | .insert _ _ _ | .update _ _ _ => Except JsError Unit
  | .now => ℕ
  | .respond _ => Unit

abbrev Handler (α : Type) := Program Ans JsError α

def perform (op : Op) : Handler (Ans op) := Program.call op

inductive Write where
  | insert (row : Prekey)
  | update (id : JsString) (changes : PrekeyChanges) (now : ℕ)

namespace Write

def apply : Write → Table → Table
  | insert row, t => (t.insert row).getD t
  | update id changes now, t =>
    t.update (fun r => r.id = id) (changes.apply now) (changes.apply_id now)

/-- The row that the write locks. -/
def row : Write → JsString
  | insert row => row.id
  | update id _ _ => id

end Write

/-- What all requests share; `ι` numbers the requests. `history` lists the requests whose
transactions have committed, in the order of the commits. -/
structure Database (ι : Type) where
  prekeys : Table
  locks : Locks JsString ι
  pending : ι → Option (List Write)
  history : List ι
  answers : ι → List Answer

/-- What one effect meets besides the database: the clock, the generated key, how Postgres
reads a parameter that it compares with a text column, which of several rows a query
without an order returns, and a possible failure. -/
structure Conditions where
  now : ℕ
  newId : JsString
  asText : Value → Option JsString
  pick : ℕ
  failure : Option JsError

def Conditions.outcome {α : Type} (c : Conditions) (a : α) : Except JsError α :=
  match c.failure with
  | none => .ok a
  | some e => .error e

/-- A row of the user and the device, if there is one. -/
def Conditions.select (c : Conditions) (userId : JsString) (deviceId : Value)
    (rows : List Prekey) : Option Prekey :=
  ((rows.filter fun r => r.userId = userId ∧ c.asText deviceId = some r.deviceId).rotate
    c.pick).head?

/-- A row of the user and the device that no other one is later than. -/
def Conditions.latest (c : Conditions) (userId : JsString) (deviceId : Value)
    (rows : List Prekey) : Option Prekey :=
  let found := rows.filter fun r => r.userId = userId ∧ c.asText deviceId = some r.deviceId
  ((found.filter fun r => ∀ r' ∈ found, r'.createdAt ≤ r.createdAt).rotate c.pick).head?

/-- The row that an `INSERT` stores. A device must be a text that its column can hold. -/
def NewPrekey.toRow (row : NewPrekey) (c : Conditions) (id : Option JsString) :
    Except JsError Prekey :=
  match c.asText row.deviceId with
  | none => .error (.failure "null value in column violates not-null constraint")
  | some deviceId =>
    match varcharError deviceId with
    | some e => .error e
    | none => .ok {
        id := id.getD c.newId
        userId := row.userId
        deviceId := deviceId
        bundle := stored row.bundle
        lastBackupTimestamp := row.lastBackupTimestamp
        createdAt := c.now
        updatedAt := c.now }

theorem NewPrekey.toRow_eq_ok {row : NewPrekey} {c : Conditions} {id : Option JsString}
    {r : Prekey} (h : row.toRow c id = .ok r) : ∃ deviceId, c.asText row.deviceId = some deviceId ∧
      Fits deviceId ∧ r = ⟨id.getD c.newId, row.userId, deviceId, stored row.bundle,
        row.lastBackupTimestamp, c.now, c.now⟩ := by
  unfold NewPrekey.toRow at h
  cases hd : c.asText row.deviceId with
  | none => simp [hd] at h
  | some deviceId =>
    cases he : varcharError deviceId with
    | some e => simp [hd, he] at h
    | none =>
      simp only [hd, he, Except.ok.injEq] at h
      exact ⟨deviceId, rfl, varcharError_eq_none.mp he, h.symm⟩

/-- A row is refused when its device is no text, or a text that the column cannot hold. -/
theorem NewPrekey.toRow_eq_error {row : NewPrekey} {c : Conditions} {id : Option JsString}
    {e : JsError} (h : row.toRow c id = .error e) :
    ∀ deviceId, c.asText row.deviceId = some deviceId → ¬ Fits deviceId := by
  intro deviceId hd hfits
  have hnone : varcharError deviceId = none := varcharError_eq_none.mpr hfits
  simp [NewPrekey.toRow, hd, hnone] at h

namespace Database

variable {ι : Type} [DecidableEq ι]

omit [DecidableEq ι] in
/-- The table as a statement of request `i` sees it. -/
def view (s : Database ι) (i : ι) (m : Manager) : Table :=
  match m, s.pending i with
  | .queryRunner, some writes => writes.foldl (fun t w => w.apply t) s.prekeys
  | _, _ => s.prekeys

/-- A write in a transaction waits for the commit and locks its row until then. -/
def write (s : Database ι) (i : ι) (m : Manager) (w : Write) : Database ι :=
  match m, s.pending i with
  | .queryRunner, some writes => { s with
      pending := Function.update s.pending i (some (writes ++ [w]))
      locks := s.locks.acquire i [w.row] }
  | _, _ => { s with prekeys := w.apply s.prekeys }

/-- The end of a transaction releases its locks and forgets its writes. -/
def endTransaction (s : Database ι) (i : ι) : Database ι :=
  { s with
    pending := Function.update s.pending i none
    locks := s.locks.releaseAll i }

/-- A successful `COMMIT` makes the writes of the transaction visible. -/
def commit (s : Database ι) (i : ι) : Database ι :=
  { s.endTransaction i with
    prekeys := s.view i .queryRunner
    history := s.history ++ [i] }

def respond (s : Database ι) (i : ι) (a : Answer) : Database ι :=
  { s with answers := Function.update s.answers i (s.answers i ++ [a]) }

end Database

/-- One effect of request `i`. A `COMMIT` or a `ROLLBACK` that fails has lost the
transaction, which the server then rolls back. -/
def exec {ι : Type} [DecidableEq ι] : Semantics ι Conditions (Database ι) Ans
  | _, c, .connect, s | _, c, .release, s => some (c.outcome (), s)
  | i, c, .startTransaction, s =>
    match c.failure with
    | some e => some (.error e, s)
    | none => some (.ok (), { s with pending := Function.update s.pending i (some []) })
  | i, c, .commitTransaction, s =>
    match s.pending i, c.failure with
    | none, _ => some (.error (.failure "Transaction is not started yet"), s)
    | some _, some e => some (.error e, s.endTransaction i)
    | some _, none => some (.ok (), s.commit i)
  | i, c, .rollbackTransaction, s => some (c.outcome (), s.endTransaction i)
  | i, c, .lockRows userId, s =>
    let rows := listing userId (s.view i .queryRunner).rows
    match c.failure with
    | some e => some (.error e, s)
    | none =>
      if ∀ r ∈ rows, s.locks.Available i r.id then
        some (.ok rows, { s with locks := s.locks.acquire i (rows.map Prekey.id) })
      else none
  | _, c, .findOne userId deviceId, s =>
    some (c.outcome (c.select userId deviceId s.prekeys.rows), s)
  | _, c, .findLatest userId deviceId, s =>
    some (c.outcome (c.latest userId deviceId s.prekeys.rows), s)
  | i, c, .reread m id, s => some (c.outcome ((s.view i m).find id), s)
  | i, c, .insert m id row, s =>
    match c.failure, row.toRow c id with
    | some e, _ | none, .error e => some (.error e, s)
    | none, .ok r =>
      if r.id ∈ (s.view i m).rows.map Prekey.id then
        some (.error (.failure "duplicate key value violates unique constraint"), s)
      else some (.ok (), s.write i m (.insert r))
  | i, c, .update m id changes, s =>
    match c.failure with
    | some e => some (.error e, s)
    | none =>
      if s.locks.Available i id then some (.ok (), s.write i m (.update id changes c.now))
      else none
  | _, c, .now, s => some (c.now, s)
  | i, _, .respond a, s => some ((), s.respond i a)

end ChatMicroservices.PrekeyDatabase

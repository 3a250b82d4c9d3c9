import ChatMicroservices.KeyedTables
import ChatMicroservices.NotificationHandlers

/-!
# The `notifications` table and the repository calls of the controller

A call is atomic and can fail, and then it changes nothing. `save` of an entity with an id
inserts it when its row is gone, and `remove` deletes by the id.
-/

namespace ChatMicroservices.NotificationsTable
open JavaScriptValues KeyedTables
open NotificationHandlers (NotificationType)

structure Notification where
  id : JsString
  userId : JsString
  type : NotificationType
  title : JsString
  message : JsString
  read : Bool
  createdAt : ℕ
  updatedAt : ℕ
  deriving DecidableEq

abbrev Table := KeyedTable Notification.id

/-- The entity that `createNotification` saves: it has no id yet. -/
structure NewNotification where
  userId : JsString
  type : NotificationType
  title : Value
  message : Value
  read : Bool
  deriving DecidableEq

/-- A new entity after `save`: what the table generates has been added to it. -/
structure SavedNotification where
  entity : NewNotification
  id : JsString
  createdAt : ℕ
  updatedAt : ℕ
  deriving DecidableEq

/-- `none` is `NaN`. -/
abbrev ParsedInt := Option Number

inductive Op where
  | find (userId : JsString) (skip take : ParsedInt)
  | count (userId : JsString) (read : Bool)
  | findOne (id userId : JsString)
  | save (entity : Notification)
  | insert (entity : NewNotification)
  | setRead (userId : JsString)
  | remove (entity : Notification)
  deriving DecidableEq

@[reducible] def Ans : Op → Type
  | .find _ _ _ => Except JsError (List Notification)
  | .count _ _ | .setRead _ => Except JsError ℕ
  | .findOne _ _ => Except JsError (Option Notification)
  | .save _ => Except JsError Notification
  | .insert _ => Except JsError SavedNotification
  | .remove _ => Except JsError Unit

/-- How TypeORM and Postgres read the parameters of a call: as a `uuid`, as the title and the
message of a row, and as the page of the rows that a query selects. -/
structure Dialect where
  asUuid : JsString → Except JsError JsString
  asColumns : Value → Value → Except JsError (JsString × JsString)
  page : ParsedInt → ParsedInt → List Notification → Except JsError (List Notification)

/-- What a call meets besides the table. -/
structure Conditions where
  now : ℕ
  newId : JsString
  failure : Option JsError

/-- A call that does not fail by itself. -/
def Conditions.attempt {α : Type} (c : Conditions) (r : Except JsError α × Table) (t : Table) :
    Except JsError α × Table :=
  match c.failure with
  | some e => (.error e, t)
  | none => r

/-- The row of `entity` after the `UPDATE` of the columns in which it differs from `stored`. The
update time is set as well, unless it is one of them. -/
def written (now : ℕ) (entity stored : Notification) : Notification :=
  if entity = stored then stored
  else { entity with
    id := stored.id
    updatedAt := if entity.updatedAt = stored.updatedAt then now else entity.updatedAt }

theorem written_id (now : ℕ) (entity stored : Notification) :
    (written now entity stored).id = stored.id := by
  rw [written]
  split
  · rfl
  · rfl

/-- `save` of an entity with an id. -/
def saveEntity (now : ℕ) (entity : Notification) (t : Table) :
    Except JsError Notification × Table :=
  match t.find entity.id with
  | some stored =>
    (.ok (written now entity stored),
      t.update (fun r => r.id = entity.id) (written now entity) (written_id now entity))
  | none =>
    match t.insert entity with
    | some t' => (.ok entity, t')
    | none => (.error (.failure "duplicate key value violates unique constraint"), t)

def NewNotification.toRow (n : NewNotification) (id title message : JsString) (now : ℕ) :
    Notification where
  id := id
  userId := n.userId
  type := n.type
  title := title
  message := message
  read := n.read
  createdAt := now
  updatedAt := now

def insertEntity (d : Dialect) (c : Conditions) (entity : NewNotification) (t : Table) :
    Except JsError SavedNotification × Table :=
  match d.asColumns entity.title entity.message with
  | .error e => (.error e, t)
  | .ok (title, message) =>
    match t.insert (entity.toRow c.newId title message c.now) with
    | some t' => (.ok ⟨entity, c.newId, c.now, c.now⟩, t')
    | none => (.error (.failure "duplicate key value violates unique constraint"), t)

/-- The rows of a user, the newest first. -/
def newestFirst (userId : JsString) (t : Table) : List Notification :=
  (t.rows.filter fun r => r.userId = userId).mergeSort fun r r' => r'.createdAt ≤ r.createdAt

def unread (userId : JsString) (r : Notification) : Bool := r.userId = userId ∧ r.read = false

def markRead (now : ℕ) (r : Notification) : Notification :=
  { r with read := true, updatedAt := now }

theorem markRead_id (now : ℕ) (r : Notification) : (markRead now r).id = r.id := rfl

/-- A repository call on the table. -/
def exec (d : Dialect) (c : Conditions) : (op : Op) → Table → Ans op × Table
  | .find userId skip take, t => c.attempt (d.page skip take (newestFirst userId t), t) t
  | .count userId read, t =>
    c.attempt (.ok (t.rows.countP fun r => r.userId = userId ∧ r.read = read), t) t
  | .findOne id userId, t =>
    c.attempt ((d.asUuid id).map fun key => (t.find key).filter fun r => r.userId = userId, t) t
  | .save entity, t => c.attempt (saveEntity c.now entity t) t
  | .insert entity, t => c.attempt (insertEntity d c entity t) t
  | .setRead userId, t =>
    c.attempt (.ok (t.rows.countP (unread userId)),
      t.update (unread userId) (markRead c.now) (markRead_id c.now)) t
  | .remove entity, t => c.attempt (.ok (), t.filter fun r => r.id ≠ entity.id) t

section Calls

variable {d : Dialect} {c : Conditions} {t : Table}

/-- A call fails and leaves the table alone, or has its effect. -/
theorem attempt_cases {α : Type} (r : Except JsError α × Table) :
    (∃ e, c.attempt r t = (.error e, t)) ∨ (c.failure = none ∧ c.attempt r t = r) := by
  rw [Conditions.attempt]
  cases hfail : c.failure with
  | some e => exact .inl ⟨e, rfl⟩
  | none => exact .inr ⟨rfl, rfl⟩

/-- What holds of the table without the effect and with it holds after the call. -/
theorem attempt_state {P : Table → Prop} (ht : P t) {α : Type} {r : Except JsError α × Table}
    (hr : c.failure = none → P r.2) : P (c.attempt r t).2 := by
  rcases attempt_cases r with ⟨e, h⟩ | ⟨hfail, h⟩
  · rw [h]
    exact ht
  · rw [h]
    exact hr hfail

/-- `save` of an entity that has a row. -/
theorem saveEntity_of_mem (now : ℕ) {entity stored : Notification} (h : stored ∈ t.rows)
    (hid : stored.id = entity.id) : saveEntity now entity t =
      (.ok (written now entity stored),
        t.update (fun r => r.id = entity.id) (written now entity) (written_id now entity)) := by
  have hfind : t.find entity.id = some stored := KeyedTable.find_eq_some.mpr ⟨h, hid⟩
  rw [saveEntity, hfind]

/-- An `INSERT` fails and leaves the table alone, or adds the row. -/
theorem insertEntity_state (entity : NewNotification) :
    (insertEntity d c entity t).2 = t ∨
      ∃ columns, d.asColumns entity.title entity.message = .ok columns ∧
        t.insert (entity.toRow c.newId columns.1 columns.2 c.now) =
          some (insertEntity d c entity t).2 := by
  rw [insertEntity]
  cases d.asColumns entity.title entity.message with
  | error e => exact .inl rfl
  | ok columns =>
    cases hinsert : t.insert (entity.toRow c.newId columns.1 columns.2 c.now) with
    | none => exact .inl (by simp only [hinsert])
    | some t' => exact .inr ⟨columns, rfl, by simp only [hinsert]⟩

theorem exec_findOne_state (id userId : JsString) : (exec d c (.findOne id userId) t).2 = t :=
  attempt_state (P := fun u => u = t) rfl fun _ => rfl

/-- A notification that is found is a row of the user, under the key that was asked for. -/
theorem exec_findOne_eq_some {id userId : JsString} {n : Notification}
    (h : (exec d c (.findOne id userId) t).1 = .ok (some n)) :
    d.asUuid id = .ok n.id ∧ n ∈ t.rows ∧ n.userId = userId := by
  rw [exec, Conditions.attempt] at h
  cases hfail : c.failure with
  | some e => simp [hfail] at h
  | none =>
    cases hkey : d.asUuid id with
    | error e => simp [hfail, hkey, Except.map] at h
    | ok key =>
      simp only [hfail, hkey, Except.map, Except.ok.injEq, Option.filter_eq_some_iff,
        decide_eq_true_eq] at h
      obtain ⟨hfind, huser⟩ := h
      obtain ⟨hmem, rfl⟩ := KeyedTable.find_eq_some.mp hfind
      exact ⟨rfl, hmem, huser⟩

end Calls

/-- Every text is read as a key, and titles and messages are strings. -/
def plain : Dialect where
  asUuid id := .ok id
  asColumns
    | .json (.str title), .json (.str message) => .ok (title, message)
    | _, _ => .error (.failure "invalid input syntax")
  page _ _ rows := .ok rows

def calm : Conditions := ⟨1, js "n2", none⟩

def unreadRow : Notification :=
  ⟨js "n1", js "u1", .message, js "New message from alice", js "[Encrypted message]", false, 0, 0⟩

def oneRow : Table := ⟨[unreadRow], List.nodup_singleton _⟩

end ChatMicroservices.NotificationsTable

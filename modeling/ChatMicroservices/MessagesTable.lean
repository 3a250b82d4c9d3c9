import ChatMicroservices.JavaScriptValues
import ChatMicroservices.KeyedTables
import ChatMicroservices.StoredTexts
import Mathlib.Order.Lattice

/-!
# The `messages` table and the repository that reads and writes it

A row is what `Message` declares. The handlers reach the table through five statements;
`Repository` leaves open how they are answered, and `postgres` answers them from a table
whose primary keys are distinct. Every statement can also fail and then changes nothing. An
`INSERT` answers the entity it was given, while its columns hold the texts as UTF-8 has them.
-/

namespace ChatMicroservices.MessagesTable
open JavaScriptValues KeyedTables StoredTexts

inductive MessageStatus where
  | notDelivered | delivered | seen
  deriving DecidableEq

namespace MessageStatus

def rank : MessageStatus → ℕ
  | notDelivered => 0
  | delivered => 1
  | seen => 2

theorem rank_injective : Function.Injective rank := by
  intro a b h
  cases a <;> cases b <;> first | rfl | cases h

/-- A message is delivered after it is sent and seen after it is delivered. -/
instance : LinearOrder MessageStatus := LinearOrder.lift' rank rank_injective

theorem le_seen (s : MessageStatus) : s ≤ seen := by
  cases s <;> decide

theorem le_delivered {s : MessageStatus} (h : s ≠ seen) : s ≤ delivered := by
  cases s
  · decide
  · decide
  · exact absurd rfl h

end MessageStatus

/-- A row. Nothing on the socket path makes the receiver a string before it is stored. -/
structure Message where
  id : JsString
  senderId : JsString
  receiverId : Json
  message : JsString
  isEncrypted : Bool
  status : MessageStatus
  createdAt : ℕ
  updatedAt : ℕ
  deriving DecidableEq

/-- A column value that is no text is stored as it is. -/
def encodeColumn (encode : JsString → JsString) : Json → Json
  | .str s => .str (encode s)
  | v => v

/-- The row that holds an entity. -/
def Message.encoded (encode : JsString → JsString) (m : Message) : Message :=
  { m with
    senderId := encode m.senderId
    receiverId := encodeColumn encode m.receiverId
    message := encode m.message }

@[simp] theorem Message.encoded_id (encode : JsString → JsString) (m : Message) :
    (m.encoded encode).id = m.id := rfl

@[simp] theorem encoded_verbatim (m : Message) : m.encoded id = m := by
  have hcolumn : encodeColumn id m.receiverId = m.receiverId := by
    cases m.receiverId <;> rfl
  rw [Message.encoded, hcolumn]
  rfl

/-- The entity that a send path passes to `save`. -/
structure NewMessage where
  senderId : JsString
  receiverId : Json
  message : JsString
  isEncrypted : Bool
  status : MessageStatus
  deriving DecidableEq

/-- The columns that an `UPDATE` sets. -/
structure Changes where
  senderId : Option JsString
  receiverId : Option Json
  message : Option JsString
  isEncrypted : Option Bool
  status : Option MessageStatus
  deriving DecidableEq

/-- The columns in which an entity differs from the stored row. -/
def changesFrom (entity stored : Message) : Changes where
  senderId := differing entity.senderId stored.senderId
  receiverId := differing entity.receiverId stored.receiverId
  message := differing entity.message stored.message
  isEncrypted := differing entity.isEncrypted stored.isEncrypted
  status := differing entity.status stored.status

namespace Changes

def none : Changes := ⟨.none, .none, .none, .none, .none⟩

def onlyStatus (s : MessageStatus) : Changes := { none with status := some s }

def encoded (encode : JsString → JsString) (c : Changes) : Changes :=
  { c with
    senderId := c.senderId.map encode
    receiverId := c.receiverId.map (encodeColumn encode)
    message := c.message.map encode }

@[simp] theorem encoded_status (encode : JsString → JsString) (c : Changes) :
    (c.encoded encode).status = c.status := rfl

@[simp] theorem encoded_onlyStatus (encode : JsString → JsString) (s : MessageStatus) :
    (onlyStatus s).encoded encode = onlyStatus s := rfl

def apply (c : Changes) (now : ℕ) (m : Message) : Message where
  id := m.id
  senderId := c.senderId.getD m.senderId
  receiverId := c.receiverId.getD m.receiverId
  message := c.message.getD m.message
  isEncrypted := c.isEncrypted.getD m.isEncrypted
  status := c.status.getD m.status
  createdAt := m.createdAt
  updatedAt := now

@[simp] theorem apply_id (c : Changes) (now : ℕ) (m : Message) : (c.apply now m).id = m.id := rfl

end Changes

/-- `m'` is a later version of the row `m`: only its status and its update time differ. -/
structure SameMessage (m m' : Message) : Prop where
  id : m'.id = m.id
  senderId : m'.senderId = m.senderId
  receiverId : m'.receiverId = m.receiverId
  message : m'.message = m.message
  isEncrypted : m'.isEncrypted = m.isEncrypted

theorem SameMessage.refl (m : Message) : SameMessage m m := ⟨rfl, rfl, rfl, rfl, rfl⟩

theorem SameMessage.trans {a b c : Message} (h : SameMessage a b) (h' : SameMessage b c) :
    SameMessage a c :=
  ⟨h'.id.trans h.id, h'.senderId.trans h.senderId, h'.receiverId.trans h.receiverId,
    h'.message.trans h.message, h'.isEncrypted.trans h.isEncrypted⟩

theorem sameMessage_onlyStatus (s : MessageStatus) (now : ℕ) (m : Message) :
    SameMessage m ((Changes.onlyStatus s).apply now m) := ⟨rfl, rfl, rfl, rfl, rfl⟩

/-- An entity whose status alone was assigned differs from its row in the status at most. -/
theorem changesFrom_of_sameMessage {m stored : Message} (h : SameMessage stored m) :
    changesFrom m stored = { Changes.none with status := differing m.status stored.status } := by
  simp [changesFrom, Changes.none, h.senderId, h.receiverId, h.message, h.isEncrypted]

abbrev Table := KeyedTable Message.id

/-- `UPDATE` of the rows that satisfy `p`. -/
def updateWhere (t : Table) (p : Message → Bool) (c : Changes) (now : ℕ) : Table :=
  t.update p (c.apply now) (c.apply_id now)

/-- The statements behind the repository calls of the handlers, over any store `τ`. -/
structure Repository (τ : Type) where
  findOne : Value → τ → Except JsError (Option Message) × τ
  insert : Option JsString → NewMessage → τ → Except JsError Message × τ
  reread : JsString → τ → Except JsError (Option Message) × τ
  update : JsString → Changes → τ → Except JsError Unit × τ
  markSeen : Value → JsString → τ → Except JsError ℕ × τ

inductive Statement where
  | select | reread | insert | update
  deriving DecidableEq

/-- What a statement meets besides the table: the clock, the generated key, how Postgres
reads a parameter that it compares with a `uuid` or a text column (`none` is `NULL`), and a
possible failure. -/
structure Conditions where
  now : ℕ
  newId : JsString
  asUuid : Value → Except JsError JsString
  asText : Value → Option JsString
  failure : Statement → Option JsError

/-- The key that a query by id looks up, unless the query fails. -/
def Conditions.queriedKey (c : Conditions) (id : Value) : Except JsError JsString :=
  match c.failure .select with
  | some e => .error e
  | none => c.asUuid id

/-- The entity that an `INSERT` answers. -/
def NewMessage.toRow (m : NewMessage) (id : JsString) (now : ℕ) : Message where
  id := id
  senderId := m.senderId
  receiverId := m.receiverId
  message := m.message
  isEncrypted := m.isEncrypted
  status := m.status
  createdAt := now
  updatedAt := now

/-- The condition of the bulk update: the pair of users, and a status other than `Seen`. -/
def unreadFrom (senderId : Option JsString) (receiverId : JsString) (m : Message) : Bool :=
  senderId = some m.senderId ∧ m.receiverId = .str receiverId ∧ m.status ≠ .seen

/-- The error of the columns that cannot hold the texts of an entity. -/
def NewMessage.refused (m : NewMessage) : Option JsError :=
  let receiverError :=
    match m.receiverId with
    | .str s => varcharError s
    | _ => none
  ((varcharError m.senderId).or receiverError).or (textError m.message)

/-- The statements over columns that hold a text as `encode` has it. -/
def statements (encode : JsString → JsString) (c : Conditions) : Repository Table where
  findOne id t := ((c.queriedKey id).map t.find, t)
  insert id m t :=
    let entity := m.toRow (id.getD c.newId) c.now
    match (c.failure .insert).or m.refused, t.insert (entity.encoded encode) with
    | some e, _ => (.error e, t)
    | none, none => (.error (.failure "duplicate key value violates unique constraint"), t)
    | none, some t' => (.ok entity, t')
  reread id t :=
    match c.failure .reread with
    | some e => (.error e, t)
    | none => (.ok (t.find id), t)
  update id changes t :=
    match c.failure .update with
    | some e => (.error e, t)
    | none => (.ok (), updateWhere t (fun m => m.id = id) (changes.encoded encode) c.now)
  markSeen senderId receiverId t :=
    match c.failure .update with
    | some e => (.error e, t)
    | none => (.ok (t.rows.countP (unreadFrom (c.asText senderId) receiverId)),
        updateWhere t (unreadFrom (c.asText senderId) receiverId) (Changes.onlyStatus .seen)
          c.now)

/-- The statements as Postgres answers them. -/
abbrev postgres : Conditions → Repository Table := statements toWellFormed

/-- The statements of a store that holds every text as it is given. -/
abbrev verbatim : Conditions → Repository Table := statements id

section Statements

variable {encode : JsString → JsString} {c : Conditions} {t : Table}

theorem statements_findOne_eq_some {id : Value} {m : Message}
    (h : ((statements encode c).findOne id t).1 = .ok (some m)) :
    m ∈ t.rows ∧ c.queriedKey id = .ok m.id := by
  simp only [statements] at h
  cases hk : c.queriedKey id with
  | error e => simp [hk, Except.map] at h
  | ok key =>
    rw [hk] at h
    obtain ⟨hm, hkey⟩ := KeyedTable.find_eq_some.mp (Except.ok.inj h)
    exact ⟨hm, congrArg _ hkey.symm⟩

/-- A row that is in the table is the one its key is read as. -/
theorem statements_reread_of_mem {m : Message} (hm : m ∈ t.rows) :
    ((statements encode c).reread m.id t).1 = .ok (some m) ∨
      ∃ e, ((statements encode c).reread m.id t).1 = .error e := by
  simp only [statements]
  split
  · exact .inr ⟨_, rfl⟩
  · exact .inl (congrArg _ (KeyedTable.find_eq_some.mpr ⟨hm, rfl⟩))

theorem statements_reread_db (id : JsString) : ((statements encode c).reread id t).2 = t := by
  simp only [statements]
  split <;> rfl

theorem statements_insert_db (id : Option JsString) (m : NewMessage) :
    ((statements encode c).insert id m t).2 = t ∨
      t.insert ((m.toRow (id.getD c.newId) c.now).encoded encode) =
        some ((statements encode c).insert id m t).2 := by
  simp only [statements]
  split
  · exact .inl rfl
  · exact .inl rfl
  · rename_i h
    exact .inr h

theorem statements_update_db (id : JsString) (changes : Changes) :
    ((statements encode c).update id changes t).2 = t ∨
      ((statements encode c).update id changes t).2 =
        updateWhere t (fun m => m.id = id) (changes.encoded encode) c.now := by
  simp only [statements]
  split
  · exact .inl rfl
  · exact .inr rfl

theorem statements_markSeen_db (senderId : Value) (receiverId : JsString) :
    ((statements encode c).markSeen senderId receiverId t).2 = t ∨
      ((statements encode c).markSeen senderId receiverId t).2 =
        updateWhere t (unreadFrom (c.asText senderId) receiverId) (Changes.onlyStatus .seen)
          c.now := by
  simp only [statements]
  split
  · exact .inl rfl
  · exact .inr rfl

/-- A successful insertion answers its entity and stores it under a key that was free. -/
theorem statements_insert_ok {id : Option JsString} {m : NewMessage} {saved : Message}
    (h : ((statements encode c).insert id m t).1 = .ok saved) :
    saved = m.toRow (id.getD c.newId) c.now ∧
      t.insert (saved.encoded encode) = some ((statements encode c).insert id m t).2 := by
  simp only [statements] at h ⊢
  cases hf : (c.failure .insert).or m.refused with
  | some e => simp [hf] at h
  | none =>
    cases ht : t.insert ((m.toRow (id.getD c.newId) c.now).encoded encode) with
    | none => simp [hf, ht] at h
    | some t' =>
      simp only [hf, ht, Except.ok.injEq] at h ⊢
      exact ⟨h.symm, h ▸ ht⟩

theorem statements_insert_error {id : Option JsString} {m : NewMessage} {e : JsError}
    (h : ((statements encode c).insert id m t).1 = .error e) :
    ((statements encode c).insert id m t).2 = t := by
  simp only [statements] at h ⊢
  cases hf : (c.failure .insert).or m.refused with
  | some e => rfl
  | none =>
    cases ht : t.insert ((m.toRow (id.getD c.newId) c.now).encoded encode) with
    | none => rfl
    | some t' => simp [hf, ht] at h

theorem statements_insert_mem {id : Option JsString} {m : NewMessage} {saved : Message}
    (h : ((statements encode c).insert id m t).1 = .ok saved) :
    saved.encoded encode ∈ ((statements encode c).insert id m t).2.rows := by
  obtain ⟨-, ht⟩ := statements_insert_ok h
  obtain ⟨hrows, -⟩ := KeyedTable.insert_eq_some ht
  simp [hrows]

end Statements

end ChatMicroservices.MessagesTable

import ChatMicroservices.HandlerFootprints

/-!
# The encryption invariant of the store

Clients send messages and receipts on both paths, one request after another. Every row of
the table is an encrypted message of the user who inserted it, and apart from its status
and update time it never changes. One request relates the tables before and after it; the
invariant of runs follows by induction. Rows hold texts as UTF-8 has them, which keeps an
envelope an envelope.
-/

namespace ChatMicroservices.EncryptedStore
open JavaScriptValues EffectPrograms KeyedTables MessagesTable ChatEffects
open SocketHandlers SendMessageRuns MessageController HandlerFootprints StoredTexts

/-- A row as the store promises it. -/
structure EndToEndEncrypted (m : Message) : Prop where
  isEncrypted : m.isEncrypted = true
  distinct : m.receiverId ≠ .str m.senderId
  text : EncryptedText m.message

theorem EndToEndEncrypted.of_sameMessage {m m' : Message} (h : EndToEndEncrypted m)
    (hs : SameMessage m m') : EndToEndEncrypted m' where
  isEncrypted := hs.isEncrypted.trans h.isEncrypted
  distinct := by
    rw [hs.receiverId, hs.senderId]
    exact h.distinct
  text := hs.message ▸ h.text

/-- Members of the same kind are both a given boolean, or both texts. -/
theorem same_member {fields fields' : List (JsString × Json)} (h : SameMembers fields fields')
    (key : String) (hkey : Plain (js key)) :
    (Value.field (.json (.obj fields')) key).strictEq (.json (.bool true)) =
        (Value.field (.json (.obj fields)) key).strictEq (.json (.bool true)) ∧
      (Value.field (.json (.obj fields')) key).isString =
        (Value.field (.json (.obj fields)) key).isString := by
  have hsame := h (js key) hkey
  simp only [Value.field]
  cases hl : lookup (js key) fields with
  | none =>
    rw [hl, Option.map_none, Option.map_eq_none_iff] at hsame
    rw [hsame]
    exact ⟨rfl, rfl⟩
  | some x =>
    rw [hl] at hsame
    obtain ⟨y, hy, hkind⟩ := Option.map_eq_some_iff.mp hsame
    rw [hy]
    cases x <;> cases y <;> first | exact ⟨rfl, rfl⟩ | cases hkind <;> exact ⟨rfl, rfl⟩

theorem isEnvelope_of_alike {x y : Json} (h : Alike x y) (hx : isEnvelope x = true) :
    isEnvelope y = true := by
  cases h with
  | obj hmembers =>
    have hencrypted := (same_member hmembers "__encrypted" (by decide)).1
    have hbody := (same_member hmembers "body" (by decide)).2
    rw [← hx, isEnvelope, isEnvelope, hencrypted, hbody]
  | null | bool _ | num _ | str _ _ | arr _ _ => cases hx

/-- The column of an encrypted text holds one. -/
theorem EncryptedText.stored {text : JsString} (h : EncryptedText text) :
    EncryptedText (toWellFormed text) where
  trimmed := trimmed_toWellFormed h.trimmed
  nonempty := (length_toWellFormed text).symm ▸ h.nonempty
  short := (length_toWellFormed text).symm ▸ h.short
  envelope := by
    obtain ⟨env, hparse, henv⟩ := h.envelope
    obtain ⟨stored, hstored, halike⟩ := parse_toWellFormed hparse
    exact ⟨stored, hstored, isEnvelope_of_alike halike henv⟩

theorem encoded_endToEndEncrypted {userId : JsString} (hplain : Plain userId) {row : NewMessage}
    (h : Sendable userId row) (id : JsString) (now : ℕ) :
    EndToEndEncrypted ((row.toRow id now).encoded toWellFormed) where
  isEncrypted := h.isEncrypted
  distinct := by
    have hsender : toWellFormed row.senderId = userId :=
      (toWellFormed_eq_iff hplain).mpr h.senderId
    change encodeColumn toWellFormed row.receiverId ≠ .str (toWellFormed row.senderId)
    rw [hsender]
    cases hr : row.receiverId with
    | str r =>
      intro heq
      have hr' : r = userId := (toWellFormed_eq_iff hplain).mp (Json.str.inj heq)
      exact h.receiverId (hr.trans (congrArg Json.str hr'))
    | null | bool _ | num _ | arr _ | obj _ => exact fun heq => (by cases heq)
  text := EncryptedText.stored h.text

/-- What a request of the user `userId` does to the table: it keeps every message, and what
it adds is new, encrypted and sent by that user. -/
structure Grows (userId : JsString) (t t' : Table) : Prop where
  kept : ∀ m ∈ t.rows, ∃ m' ∈ t'.rows, SameMessage m m'
  added : ∀ m' ∈ t'.rows, (∃ m ∈ t.rows, SameMessage m m') ∨
    ((∀ m ∈ t.rows, m.id ≠ m'.id) ∧ m'.senderId = userId ∧ EndToEndEncrypted m')

namespace Grows

variable {userId : JsString} {t t' t'' : Table}

theorem refl (userId : JsString) (t : Table) : Grows userId t t :=
  ⟨fun m hm => ⟨m, hm, .refl m⟩, fun m hm => .inl ⟨m, hm, .refl m⟩⟩

theorem trans (h : Grows userId t t') (h' : Grows userId t' t'') : Grows userId t t'' := by
  constructor
  · intro m hm
    obtain ⟨m₁, hm₁, hs₁⟩ := h.kept m hm
    obtain ⟨m₂, hm₂, hs₂⟩ := h'.kept m₁ hm₁
    exact ⟨m₂, hm₂, hs₁.trans hs₂⟩
  · intro m₂ hm₂
    rcases h'.added m₂ hm₂ with ⟨m₁, hm₁, hs₁⟩ | ⟨hnew, hsender, henc⟩
    · rcases h.added m₁ hm₁ with ⟨m, hm, hs⟩ | ⟨hnew, hsender, henc⟩
      · exact .inl ⟨m, hm, hs.trans hs₁⟩
      · refine .inr ⟨fun m hm => ?_, hs₁.senderId.trans hsender, henc.of_sameMessage hs₁⟩
        rw [hs₁.id]
        exact hnew m hm
    · refine .inr ⟨fun m hm heq => ?_, hsender, henc⟩
      obtain ⟨m₁, hm₁, hs₁⟩ := h.kept m hm
      exact hnew m₁ hm₁ (hs₁.id.trans heq)

theorem of_insert {row : NewMessage} {id : JsString} {now : ℕ} (hplain : Plain userId)
    (hrow : Sendable userId row)
    (h : t.insert ((row.toRow id now).encoded toWellFormed) = some t') : Grows userId t t' := by
  obtain ⟨hrows, hnew⟩ := KeyedTable.insert_eq_some h
  constructor
  · intro m hm
    exact ⟨m, hrows ▸ List.mem_append_left _ hm, .refl m⟩
  · intro m' hm'
    rw [hrows, List.mem_append, List.mem_singleton] at hm'
    rcases hm' with hm' | rfl
    · exact .inl ⟨m', hm', .refl m'⟩
    · refine .inr ⟨hnew, ?_, encoded_endToEndEncrypted hplain hrow id now⟩
      exact (toWellFormed_eq_iff hplain).mpr hrow.senderId

/-- An update of statuses keeps the messages. -/
theorem of_status (userId : JsString) (p : Message → Bool) (s : MessageStatus) (now : ℕ) :
    Grows userId t (updateWhere t p (Changes.onlyStatus s) now) := by
  have hsame : ∀ m : Message,
      SameMessage m (if p m then (Changes.onlyStatus s).apply now m else m) := by
    intro m
    split
    · exact sameMessage_onlyStatus s now m
    · exact .refl m
  constructor
  · intro m hm
    exact ⟨_, KeyedTable.mem_update.mpr ⟨m, hm, rfl⟩, hsame m⟩
  · intro m' hm'
    obtain ⟨m, hm, rfl⟩ := KeyedTable.mem_update.mp hm'
    exact .inl ⟨m, hm, hsame m⟩

end Grows

section Requests

variable (c : Conditions) (here : Surroundings)

/-- The effects that sending, typing and reading may have on the table. -/
theorem exec_grows {userId : JsString} (hplain : Plain userId) {op : Op} (w : World Table)
    (hinsert : ∀ id row, op = .insert id row → Sendable userId row)
    (hupdate : ∀ id changes, op ≠ .update id changes) :
    Grows userId w.db (exec (postgres c) here op w).2.db := by
  rcases exec_db c here op w with hdb | ⟨id, row, rfl, ht⟩ | ⟨id, changes, rfl, -⟩ |
    ⟨senderId, receiverId, rfl, hdb⟩
  · rw [hdb]
    exact .refl userId w.db
  · exact .of_insert hplain (hinsert id row rfl) ht
  · exact absurd rfl (hupdate id changes)
  · rw [hdb]
    exact .of_status userId _ .seen c.now

theorem run_grows {α : Type} {userId : JsString} (hplain : Plain userId) {F : Op → Prop}
    {p : Handler α} (hp : p.Issues F) (hinsert : ∀ id row, F (.insert id row) → Sendable userId row)
    (hupdate : ∀ id changes, ¬ F (.update id changes)) (w : World Table) :
    Grows userId w.db (p.run (exec (postgres c) here) w).2.db := by
  refine hp.run_along (exec (postgres c) here) (R := fun w w' => Grows userId w.db w'.db)
    (fun w => .refl userId w.db) (fun h h' => h.trans h') (fun op w hop => ?_) w
  refine exec_grows c here hplain w (fun id row h => hinsert id row (h ▸ hop))
    fun id changes h => ?_
  exact hupdate id changes (h ▸ hop)

/-- Saving an entity whose status alone was assigned writes at most its status. -/
theorem save_db {existing : Message} {w : World Table} (hm : existing ∈ w.db.rows)
    (s : MessageStatus) :
    ((save { existing with status := s }).run (exec (postgres c) here) w).2.db = w.db ∨
      ((save { existing with status := s }).run (exec (postgres c) here) w).2.db =
        updateWhere w.db (fun m => m.id = existing.id) (Changes.onlyStatus s) c.now := by
  have hsame : SameMessage existing { existing with status := s } := ⟨rfl, rfl, rfl, rfl, rfl⟩
  have hdb : ((postgres c).reread existing.id w.db).2 = w.db := statements_reread_db existing.id
  have hread : ((postgres c).reread existing.id w.db).1 = .ok (some existing) ∨
      ∃ e, ((postgres c).reread existing.id w.db).1 = .error e := statements_reread_of_mem hm
  rcases hread with hr | ⟨e, hr⟩
  · by_cases hs : s = existing.status
    · have hnone : changesFrom { existing with status := s } existing = Changes.none := by
        rw [changesFrom_of_sameMessage hsame]
        simp [Changes.none, hs]
      exact .inl (by simp [save, Program.attempt, perform, Program.call, exec, hr, hdb, hnone])
    · have hstatus : changesFrom { existing with status := s } existing =
          Changes.onlyStatus s := by
        rw [changesFrom_of_sameMessage hsame]
        simp [Changes.onlyStatus, differing, hs]
      have hne : Changes.onlyStatus s ≠ Changes.none := by
        intro h
        cases congrArg Changes.status h
      have hupdate : ((postgres c).update existing.id (Changes.onlyStatus s) w.db).2 = w.db ∨
          ((postgres c).update existing.id (Changes.onlyStatus s) w.db).2 =
            updateWhere w.db (fun m => m.id = existing.id) (Changes.onlyStatus s) c.now :=
        statements_update_db existing.id (Changes.onlyStatus s)
      simpa [save, Program.attempt, perform, Program.call, exec, hr, hdb, hstatus, hne]
        using hupdate
  · exact .inl (by simp [save, Program.attempt, perform, Program.call, exec, hr, hdb])

theorem logged_state (p : Handler Unit) (w : World Table) :
    ((logged p).run (exec (postgres c) here) w).2 = (p.run (exec (postgres c) here) w).2 := by
  rw [logged, Program.run_tryCatch]
  cases p.run (exec (postgres c) here) w with
  | mk r w' => cases r <;> rfl

/-- An effect outside the store after a program keeps the table that the program left. -/
theorem run_then_emit_db (p : Handler Unit) (room : Value) (event : ServerEvent)
    (w : World Table) :
    ((p.bind fun _ => perform (.emit room event)).run (exec (postgres c) here) w).2.db =
      (p.run (exec (postgres c) here) w).2.db := by
  rw [Program.run_bind]
  rcases p.run (exec (postgres c) here) w with ⟨r, w'⟩
  cases r <;> rfl

theorem confirmDelivery_db (userId : JsString) (messageId : Value) {existing : Message}
    {w : World Table} (hm : existing ∈ w.db.rows) :
    ((confirmDelivery userId messageId existing).run (exec (postgres c) here) w).2.db = w.db ∨
      ((confirmDelivery userId messageId existing).run (exec (postgres c) here) w).2.db =
        updateWhere w.db (fun m => m.id = existing.id) (Changes.onlyStatus .delivered) c.now := by
  unfold confirmDelivery
  split
  · exact .inl rfl
  · split
    · rw [Program.bind_eq, run_then_emit_db]
      exact save_db c here hm .delivered
    · exact .inl rfl

theorem handleMessageDelivered_grows (userId sender : JsString) (data : Value)
    (w : World Table) :
    Grows sender w.db
      ((handleMessageDelivered userId data).run (exec (postgres c) here) w).2.db := by
  unfold handleMessageDelivered
  dsimp only
  split
  · exact .refl sender w.db
  · have hdb : ((postgres c).findOne (data.field "messageId") w.db).2 = w.db := rfl
    cases hf : ((postgres c).findOne (data.field "messageId") w.db).1 with
    | error e =>
      simpa [Program.attempt, perform, Program.call, exec, hf, hdb] using Grows.refl sender w.db
    | ok found =>
      cases found with
      | none =>
        simpa [Program.attempt, perform, Program.call, exec, hf, hdb] using Grows.refl sender w.db
      | some existing =>
        simp only [Program.bind_eq, Program.attempt, perform, Program.call, Program.bind_perform,
          Program.bind_ok, Program.run_perform, exec, hf, hdb]
        rcases confirmDelivery_db c here userId (data.field "messageId")
          (statements_findOne_eq_some hf).1 with h | h
        · rw [h]
          exact .refl sender w.db
        · rw [h]
          exact .of_status sender _ .delivered c.now

end Requests

/-- What a client asks of the service. -/
inductive ClientOperation where
  | sendMessage (user : AuthUser) (body : Value)
  | socketEvent (user : AuthUser) (event : ClientEvent) (packet : Packet)
  | markAsRead (user : AuthUser) (senderId : Value)

namespace ClientOperation

def user : ClientOperation → AuthUser
  | sendMessage user _ | socketEvent user _ _ | markAsRead user _ => user

def program : ClientOperation → Handler Unit
  | sendMessage user body => do
    let _ ← MessageController.sendMessage user body
  | socketEvent user event packet => listener user event packet.arguments
  | markAsRead user senderId => do
    let _ ← MessageController.markAsRead user senderId

end ClientOperation

/-- An operation, and what it meets while it is handled. The id of its user is a UUID. -/
structure Request where
  operation : ClientOperation
  conditions : Conditions
  surroundings : Surroundings
  id_plain : Plain operation.user.id

def serve (w : World Table) (r : Request) : World Table :=
  (r.operation.program.run (exec (postgres r.conditions) r.surroundings) w).2

/-- Requests handled one after another. -/
def serveAll (requests : List Request) (w : World Table) : World Table := requests.foldl serve w

theorem listener_grows (c : Conditions) (here : Surroundings) {user : AuthUser}
    (hplain : Plain user.id) (event : ClientEvent) (args : List Value) (w : World Table) :
    Grows user.id w.db ((listener user event args).run (exec (postgres c) here) w).2.db := by
  cases event with
  | typing =>
    exact run_grows c here hplain (listener_typing_issues user args)
      (fun id row h => by simp [TypingFootprint, IsCrash] at h)
      (fun id changes h => by simp [TypingFootprint, IsCrash] at h) w
  | sendMessage =>
    exact run_grows c here hplain (listener_sendMessage_issues user args) (fun id row h => h.2)
      (fun id changes h => h) w
  | messageDelivered =>
    rw [listener, logged_state]
    exact handleMessageDelivered_grows c here user.id user.id (argument args 0) w
  | markRead =>
    have hissues := logged_issues (handleMarkRead_issues user.id (argument args 0))
    exact run_grows c here hplain hissues (fun id row h => h.elim) (fun id changes h => h) w

theorem serve_grows (w : World Table) (r : Request) :
    Grows r.operation.user.id w.db (serve w r).db := by
  obtain ⟨operation, conditions, surroundings, hplain⟩ := r
  unfold serve
  cases operation with
  | sendMessage user body =>
    have hissues : (ClientOperation.sendMessage user body).program.Issues
        (SendFootprint user.id (body.field "receiverId")) :=
      (sendMessage_issues user body).bind fun _ => trivial
    exact run_grows conditions surroundings hplain hissues (fun id row h => h.2)
      (fun id changes h => h) w
  | socketEvent user event packet =>
    exact listener_grows conditions surroundings hplain event packet.arguments w
  | markAsRead user senderId =>
    have hissues : (ClientOperation.markAsRead user senderId).program.Issues
        (ReadFootprint user.id) := (markAsRead_issues user senderId).bind fun _ => trivial
    exact run_grows conditions surroundings hplain hissues (fun id row h => h.elim)
      (fun id changes h => h) w

theorem serveAll_append (requests requests' : List Request) (w : World Table) :
    serveAll (requests ++ requests') w = serveAll requests' (serveAll requests w) :=
  List.foldl_append

theorem serveAll_kept (requests : List Request) (w : World Table) :
    ∀ m ∈ w.db.rows, ∃ m' ∈ (serveAll requests w).db.rows, SameMessage m m' := by
  induction requests generalizing w with
  | nil => exact fun m hm => ⟨m, hm, .refl m⟩
  | cons r requests ih =>
    intro m hm
    obtain ⟨m₁, hm₁, hs₁⟩ := (serve_grows w r).kept m hm
    obtain ⟨m₂, hm₂, hs₂⟩ := ih (serve w r) m₁ hm₁
    exact ⟨m₂, hm₂, hs₁.trans hs₂⟩

/-- Some request of the run, by the sender of the message, inserted it. -/
def InsertedBySender (requests : List Request) (m : Message) : Prop :=
  ∃ before request after, requests = before ++ request :: after ∧
    m.senderId = request.operation.user.id ∧
    (∀ m₀ ∈ (serveAll before World.empty).db.rows, m₀.id ≠ m.id) ∧
    ∃ m₁ ∈ (serveAll (before ++ [request]) World.empty).db.rows, SameMessage m₁ m

theorem serveAll_rows (requests : List Request) :
    ∀ m ∈ (serveAll requests World.empty).db.rows,
      EndToEndEncrypted m ∧ InsertedBySender requests m := by
  induction requests using List.reverseRecOn with
  | nil => exact fun m hm => absurd hm List.not_mem_nil
  | append_singleton requests r ih =>
    intro m hm
    have hgrows := serve_grows (serveAll requests World.empty) r
    have hlast : serveAll (requests ++ [r]) World.empty =
        serve (serveAll requests World.empty) r := serveAll_append requests [r] World.empty
    rcases hgrows.added m (hlast ▸ hm) with ⟨m₀, hm₀, hs⟩ | ⟨hnew, hsender, henc⟩
    · obtain ⟨henc, before, request, after, rfl, huser, hfresh, m₁, hm₁, hs₁⟩ := ih m₀ hm₀
      refine ⟨henc.of_sameMessage hs, before, request, after ++ [r], by simp, ?_, ?_, ?_⟩
      · exact hs.senderId.trans huser
      · exact fun n hn => hs.id ▸ hfresh n hn
      · exact ⟨m₁, hm₁, hs₁.trans hs⟩
    · exact ⟨henc, requests, r, [], rfl, hsender, hnew, m, hm, .refl m⟩

/-- In every state that requests reach from the empty table, each row is encrypted and was
inserted by its sender, and each row of an earlier state is still there unchanged. -/
theorem store_encrypted (requests : List Request) :
    (∀ m ∈ (serveAll requests World.empty).db.rows,
      EndToEndEncrypted m ∧ InsertedBySender requests m) ∧
    ∀ before after, requests = before ++ after →
      ∀ m ∈ (serveAll before World.empty).db.rows,
        ∃ m' ∈ (serveAll requests World.empty).db.rows, SameMessage m m' := by
  refine ⟨serveAll_rows requests, ?_⟩
  rintro before after rfl m hm
  rw [serveAll_append]
  exact serveAll_kept after (serveAll before World.empty) m hm

end ChatMicroservices.EncryptedStore

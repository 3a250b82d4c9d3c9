import ChatMicroservices.ConversationList
import ChatMicroservices.MessageController

/-!
# What the status writes change

`markAsRead` and `markRead` mark the messages of one sender to the user, and the badge of that
sender in the list of conversations counts the same messages. `messageDelivered` changes at
most the message that it names.
-/

namespace ChatMicroservices.StatusWrites
open JavaScriptValues EffectPrograms KeyedTables MessagesTable ChatEffects SocketHandlers
open MessageController ConversationList

/-- What the bulk update makes of a row. -/
def seenFrom (senderId userId : JsString) (now : ℕ) (m : Message) : Message :=
  if m.senderId = senderId ∧ m.receiverId = .str userId ∧ m.status ≠ .seen then
    { m with status := .seen, updatedAt := now }
  else m

theorem unreadFrom_eq (senderId userId : JsString) :
    unreadFrom (some senderId) userId = unreadBy userId (.str senderId) := by
  funext m
  simp only [unreadFrom, unreadBy, Option.some.injEq, Json.str.injEq, eq_comm]

theorem rows_markSeen (t : Table) (senderId userId : JsString) (now : ℕ) :
    (updateWhere t (unreadFrom (some senderId) userId) (Changes.onlyStatus .seen) now).rows =
      t.rows.map (seenFrom senderId userId now) := by
  refine List.map_congr_left fun m _ => ?_
  simp only [unreadFrom, seenFrom, Option.some.injEq, decide_eq_true_eq,
    eq_comm (a := senderId)]
  rfl

section Counts

variable {senderId userId : JsString} {now : ℕ}

/-- No message of the sender is unread any more. -/
theorem unreadBy_seenFrom (m : Message) :
    unreadBy userId (.str senderId) (seenFrom senderId userId now m) = false := by
  unfold seenFrom
  split
  · simp [unreadBy]
  · rename_i h
    simpa [unreadBy] using h

/-- The messages of another sender are as unread as before. -/
theorem unreadBy_seenFrom_of_ne {partner : Json} (hne : partner ≠ .str senderId) (m : Message) :
    unreadBy userId partner (seenFrom senderId userId now m) = unreadBy userId partner m := by
  unfold seenFrom
  split
  · rename_i h
    have hpartner : .str m.senderId ≠ partner := fun heq => hne (by rw [← heq, h.1])
    simp [unreadBy, hpartner]
  · rfl

theorem countP_seenFrom (rows : List Message) :
    (rows.map (seenFrom senderId userId now)).countP (unreadBy userId (.str senderId)) = 0 := by
  rw [List.countP_map, List.countP_eq_zero]
  intro m _
  simp [unreadBy_seenFrom]

theorem countP_seenFrom_of_ne {partner : Json} (hne : partner ≠ .str senderId)
    (rows : List Message) :
    (rows.map (seenFrom senderId userId now)).countP (unreadBy userId partner) =
      rows.countP (unreadBy userId partner) := by
  rw [List.countP_map]
  exact List.countP_congr fun m _ => by simp [unreadBy_seenFrom_of_ne hne]

/-- Rows among which none is unread are left as they are. -/
theorem map_seenFrom_of_countP {rows : List Message}
    (h : rows.countP (unreadBy userId (.str senderId)) = 0) :
    rows.map (seenFrom senderId userId now) = rows := by
  rw [List.countP_eq_zero] at h
  have hid : ∀ m ∈ rows, seenFrom senderId userId now m = id m := by
    intro m hm
    refine if_neg fun hunread => h m hm ?_
    simp [unreadBy, hunread.1, hunread.2.1, hunread.2.2]
  rw [List.map_congr_left hid, List.map_id]

end Counts

/-- Postgres reads the text as it is. -/
def ReadsText (c : Conditions) (text : JsString) : Prop := c.asText (.json (.str text)) = some text

section Runs

variable {c : Conditions} (here : Surroundings) (user : AuthUser) {senderId : Value}

/-- The state after the bulk update has succeeded. -/
def afterMarkSeen (c : Conditions) (senderId : Value) (userId : JsString) (w : World Table) :
    World Table where
  db := updateWhere w.db (unreadFrom (c.asText senderId) userId) (Changes.onlyStatus .seen) c.now
  typing := w.typing

/-- The update answers how many messages it has marked. -/
theorem markSeen_run (hok : c.failure .update = none) (userId : JsString) (w : World Table) :
    (Program.attempt (perform (.markSeen senderId userId))).run (exec (postgres c) here) w =
      (.ok (w.db.rows.countP (unreadFrom (c.asText senderId) userId)),
        afterMarkSeen c senderId userId w) := by
  have hexec : exec (postgres c) here (.markSeen senderId userId) w =
      (.ok (w.db.rows.countP (unreadFrom (c.asText senderId) userId)),
        afterMarkSeen c senderId userId w) := by
    simp only [exec, statements, hok, afterMarkSeen]
  exact hexec

theorem markSeen_run_failed {e : JsError} (hfails : c.failure .update = some e)
    (userId : JsString) (w : World Table) :
    (Program.attempt (perform (.markSeen senderId userId))).run (exec (postgres c) here) w =
      (.error e, w) := by
  have hexec : exec (postgres c) here (.markSeen senderId userId) w = (.error e, w) := by
    simp only [exec, statements, hfails]
  exact hexec

theorem markSeen_trace (userId : JsString) (w : World Table) :
    (Program.attempt (perform (.markSeen senderId userId))).trace (exec (postgres c) here) w =
      [(.markSeen senderId userId, w)] := rfl

theorem markAsRead_eq (h : senderId.truthy) : markAsRead user senderId =
    ((perform (.markSeen senderId user.id)).attempt.bind fun affected =>
      .done (.ok (.json 200 "Messages marked as read" (.modifiedCount affected)))).tryCatch
        fun error => .done (.ok (.next error)) := by
  have hne : ¬ ¬ senderId.truthy := not_not_intro h
  rw [markAsRead, orNext, if_neg hne]
  rfl

theorem handleMarkRead_eq {userId : JsString} {data : Value}
    (h : (data.field "senderId").truthy) : logged (handleMarkRead userId data) =
    ((perform (.markSeen (data.field "senderId") userId)).attempt.bind fun _ =>
      perform (.emit (data.field "senderId") (.messageRead userId))).tryCatch
        fun _ => .done (.ok ()) := by
  have hne : ¬ ¬ (data.field "senderId").truthy := not_not_intro h
  rw [logged, handleMarkRead, if_neg hne]
  rfl

theorem markAsRead_of_not_truthy (h : ¬ senderId.truthy) : markAsRead user senderId =
    .done (.ok (.next (.apiError 400 "Sender ID is required"))) := by
  rw [markAsRead, orNext, if_pos h]
  rfl

theorem handleMarkRead_of_not_truthy {userId : JsString} {data : Value}
    (h : ¬ (data.field "senderId").truthy) :
    logged (handleMarkRead userId data) = .done (.ok ()) := by
  rw [logged, handleMarkRead, if_pos h]
  rfl

theorem markAsRead_run (h : senderId.truthy) (hok : c.failure .update = none) (w : World Table) :
    (markAsRead user senderId).run (exec (postgres c) here) w =
      (.ok (.json 200 "Messages marked as read"
        (.modifiedCount (w.db.rows.countP (unreadFrom (c.asText senderId) user.id)))),
        afterMarkSeen c senderId user.id w) := by
  rw [markAsRead_eq user h, Program.run_tryCatch, Program.run_bind, markSeen_run here hok]
  rfl

theorem markAsRead_run_failed (h : senderId.truthy) {e : JsError}
    (hfails : c.failure .update = some e) (w : World Table) :
    (markAsRead user senderId).run (exec (postgres c) here) w = (.ok (.next e), w) := by
  rw [markAsRead_eq user h, Program.run_tryCatch, Program.run_bind,
    markSeen_run_failed here hfails]
  rfl

theorem markRead_run {userId : JsString} {data : Value} (h : (data.field "senderId").truthy)
    (hok : c.failure .update = none) (w : World Table) :
    (logged (handleMarkRead userId data)).run (exec (postgres c) here) w =
      (.ok (), afterMarkSeen c (data.field "senderId") userId w) := by
  rw [handleMarkRead_eq h, Program.run_tryCatch, Program.run_bind, markSeen_run here hok]
  rfl

theorem markRead_run_failed {userId : JsString} {data : Value}
    (h : (data.field "senderId").truthy) {e : JsError} (hfails : c.failure .update = some e)
    (w : World Table) :
    (logged (handleMarkRead userId data)).run (exec (postgres c) here) w = (.ok (), w) := by
  rw [handleMarkRead_eq h, Program.run_tryCatch, Program.run_bind,
    markSeen_run_failed here hfails]
  rfl

end Runs

/-- The row becomes `Delivered`. -/
def delivered (now : ℕ) (m : Message) : Message :=
  { m with status := .delivered, updatedAt := now }

/-- The table is as before, or the message that is named, which was sent to the user and not
delivered, is `Delivered` now. -/
def DeliversAtMost (c : Conditions) (userId : JsString) (messageId : Value) (t t' : Table) :
    Prop :=
  t' = t ∨ ∃ m ∈ t.rows, c.queriedKey messageId = .ok m.id ∧ m.receiverId = .str userId ∧
    m.status = .notDelivered ∧ t'.rows = t.rows.map fun m' => if m' = m then delivered c.now m
      else m'

section Delivered

variable {c : Conditions} (here : Surroundings) {userId : JsString}

/-- Saving a message of the table whose status was assigned changes that message at most. -/
theorem save_run {w : World Table} {m : Message} (hm : m ∈ w.db.rows)
    (hstatus : m.status = .notDelivered) :
    ((save { m with status := .delivered }).run (exec (postgres c) here) w).2.db = w.db ∨
      ((save { m with status := .delivered }).run (exec (postgres c) here) w).2.db.rows =
        w.db.rows.map fun m' => if m' = m then delivered c.now m else m' := by
  have hfind : w.db.find m.id = some m := KeyedTable.find_eq_some.mpr ⟨hm, rfl⟩
  have hchanges : changesFrom { m with status := .delivered } m =
      Changes.onlyStatus .delivered := by
    simp [changesFrom, differing, hstatus, Changes.onlyStatus, Changes.none]
  have hsome : Changes.onlyStatus .delivered ≠ Changes.none := by decide
  simp only [save, Program.attempt, perform, Program.bind_eq, Program.bind_call,
    Program.bind_perform, Program.run_perform, exec, statements]
  cases hreread : c.failure .reread with
  | some e => exact .inl rfl
  | none =>
    simp only [hfind, Program.bind_ok, hchanges, if_neg hsome, Program.run_perform, exec]
    cases hupdate : c.failure .update with
    | some e => exact .inl rfl
    | none =>
      right
      refine List.map_congr_left fun m' hm' => ?_
      by_cases heq : m' = m
      · subst heq
        simp [delivered, Changes.apply, Changes.encoded, Changes.onlyStatus, Changes.none]
      · have hid : m'.id ≠ m.id := fun h => heq (w.db.eq_of_key_eq hm' hm h)
        simp [heq, hid]

/-- A program whose exceptions are only logged leaves the state that it leaves without that. -/
theorem logged_run_snd (p : Handler Unit) (w : World Table) :
    ((logged p).run (exec (postgres c) here) w).2 = (p.run (exec (postgres c) here) w).2 := by
  rw [logged, Program.run_tryCatch]
  cases p.run (exec (postgres c) here) w with
  | mk result w' => cases result <;> rfl

theorem confirmDelivery_run (messageId : Value) {w : World Table} {m : Message}
    (hm : m ∈ w.db.rows) (hnamed : c.queriedKey messageId = .ok m.id) :
    DeliversAtMost c userId messageId w.db
      ((confirmDelivery userId messageId m).run (exec (postgres c) here) w).2.db := by
  unfold confirmDelivery
  by_cases hreceiver : m.receiverId = .str userId
  · rw [if_neg (not_not_intro hreceiver)]
    by_cases hstatus : m.status = .notDelivered
    · simp only [if_pos hstatus, Program.bind_eq, Program.run_bind]
      have hsave := save_run (c := c) here hm hstatus
      cases hrun : (save { m with status := .delivered }).run (exec (postgres c) here) w with
      | mk result w' =>
        rw [hrun] at hsave
        have hdb : ((Program.resume (exec (postgres c) here)
            (fun _ => perform (.emit (.json (.str m.senderId))
              (.messageDelivered messageId userId))) (result, w')).2).db = w'.db := by
          cases result <;> rfl
        rw [hdb]
        rcases hsave with hsame | hrows
        · exact .inl hsame
        · exact .inr ⟨m, hm, hnamed, hreceiver, hstatus, hrows⟩
    · simp only [if_neg hstatus]
      exact .inl rfl
  · rw [if_pos hreceiver]
    exact .inl rfl

theorem messageDelivered_run (data : Value) (w : World Table) :
    DeliversAtMost c userId (data.field "messageId") w.db
      ((logged (handleMessageDelivered userId data)).run (exec (postgres c) here) w).2.db := by
  rw [logged_run_snd]
  unfold handleMessageDelivered
  by_cases htruthy : (data.field "messageId").truthy
  · simp only [if_neg (not_not_intro htruthy), Program.attempt, perform, Program.bind_eq,
      Program.bind_call, Program.bind_perform, Program.run_perform]
    cases hfound : ((postgres c).findOne (data.field "messageId") w.db).1 with
    | error e =>
      simp only [exec, hfound, Program.bind_error]
      exact .inl rfl
    | ok found =>
      cases found with
      | none =>
        simp only [exec, hfound, Program.bind_ok]
        exact .inl rfl
      | some m =>
        obtain ⟨hm, hnamed⟩ := statements_findOne_eq_some hfound
        simp only [exec, hfound, Program.bind_ok]
        exact confirmDelivery_run here (data.field "messageId") hm hnamed
  · simp only [if_pos htruthy]
    exact .inl rfl

end Delivered

/-- What a successful `markAsRead` of the messages from `senderId` to `userId` has done: the
table after it, the number that it reports, and the badges that the list shows. -/
structure MarksExactly (userId senderId : JsString) (now : ℕ) (t t' : Table) (n : ℕ) : Prop where
  rows : t'.rows = t.rows.map (seenFrom senderId userId now)
  reported : ∀ ties, badge (getConversations ties t userId) (.str senderId) = n
  cleared : ∀ ties, badge (getConversations ties t' userId) (.str senderId) = 0
  others : ∀ ties ties' partner, partner ≠ .str senderId →
    badge (getConversations ties' t' userId) partner =
      badge (getConversations ties t userId) partner

theorem marksExactly {c : Conditions} {senderId : JsString} (hread : ReadsText c senderId)
    (userId : JsString) (w : World Table) :
    MarksExactly userId senderId c.now w.db
      (afterMarkSeen c (.json (.str senderId)) userId w).db
      (w.db.rows.countP (unreadFrom (c.asText (.json (.str senderId))) userId)) := by
  have hrows : (afterMarkSeen c (.json (.str senderId)) userId w).db.rows =
      w.db.rows.map (seenFrom senderId userId c.now) := by
    rw [afterMarkSeen, hread, rows_markSeen]
  constructor
  · exact hrows
  · intro ties
    rw [badge_getConversations, hread, unreadFrom_eq]
  · intro ties
    rw [badge_getConversations, hrows, countP_seenFrom]
  · intro ties ties' partner hne
    rw [badge_getConversations, badge_getConversations, hrows, countP_seenFrom_of_ne hne]

/-- `markAsRead` with the sender in the path of the request. -/
def markAsReadFor (c : Conditions) (here : Surroundings) (user : AuthUser) (senderId : JsString)
    (w : World Table) : Except JsError HttpResult × World Table :=
  (markAsRead user (.json (.str senderId))).run (exec (postgres c) here) w

def reports (n : ℕ) : Except JsError HttpResult :=
  .ok (.json 200 "Messages marked as read" (.modifiedCount n))

/-- The request is refused or fails, and changes nothing. -/
def Refuses (c : Conditions) (here : Surroundings) (user : AuthUser) (senderId : JsString)
    (w : World Table) : Prop :=
  ∃ e, markAsReadFor c here user senderId w = (.ok (.next e), w) ∧
    (senderId = [] ∨ c.failure .update = some e)

/-- The request marks exactly the messages from the sender, and marks none when it is repeated. -/
def Marks (c : Conditions) (here : Surroundings) (user : AuthUser) (senderId : JsString)
    (w : World Table) : Prop :=
  ∃ n w', markAsReadFor c here user senderId w = (reports n, w') ∧
    MarksExactly user.id senderId c.now w.db w'.db n ∧
    ∀ c' here', ReadsText c' senderId →
      (markAsReadFor c' here' user senderId w').2.db.rows = w'.db.rows ∧
        (c'.failure .update = none → (markAsReadFor c' here' user senderId w').1 = reports 0)

structure WritesScoped (c : Conditions) (here : Surroundings) (user : AuthUser)
    (senderId : JsString) (w : World Table) : Prop where
  rest : Refuses c here user senderId w ∨ Marks c here user senderId w
  socket : ∀ args, (argument args 0).field "senderId" = .json (.str senderId) →
    ((listener user .markRead args).run (exec (postgres c) here) w).2.db =
      (markAsReadFor c here user senderId w).2.db
  delivered : ∀ args, DeliversAtMost c user.id ((argument args 0).field "messageId") w.db
    ((listener user .messageDelivered args).run (exec (postgres c) here) w).2.db

section Scoped

variable {c : Conditions} (here : Surroundings) (user : AuthUser) {senderId : JsString}

theorem truthy_str_iff (s : JsString) : (Value.json (.str s)).truthy ↔ s ≠ [] := by
  simp [Value.truthy]

/-- A request that is repeated finds no message to mark. -/
theorem markAsReadFor_repeated (hne : senderId ≠ []) (hread : ReadsText c senderId)
    {w : World Table} (hnone : w.db.rows.countP (unreadBy user.id (.str senderId)) = 0) :
    (markAsReadFor c here user senderId w).2.db.rows = w.db.rows ∧
      (c.failure .update = none → (markAsReadFor c here user senderId w).1 = reports 0) := by
  have htruthy := (truthy_str_iff senderId).mpr hne
  unfold markAsReadFor
  cases hfailure : c.failure .update with
  | some e =>
    rw [markAsRead_run_failed here user htruthy hfailure]
    exact ⟨rfl, fun h => by cases h⟩
  | none =>
    rw [markAsRead_run here user htruthy hfailure]
    refine ⟨?_, fun _ => ?_⟩
    · rw [afterMarkSeen, hread, rows_markSeen]
      exact map_seenFrom_of_countP hnone
    · rw [hread, unreadFrom_eq, hnone]
      rfl

theorem markAsReadFor_marks (hne : senderId ≠ []) (hread : ReadsText c senderId)
    (hok : c.failure .update = none) (w : World Table) : Marks c here user senderId w := by
  have htruthy := (truthy_str_iff senderId).mpr hne
  refine ⟨_, _, markAsRead_run here user htruthy hok w, marksExactly hread user.id w, ?_⟩
  intro c' here' hread'
  refine markAsReadFor_repeated here' user hne hread' ?_
  rw [afterMarkSeen, hread, rows_markSeen, countP_seenFrom]

theorem markRead_db {data : Value} (hdata : data.field "senderId" = .json (.str senderId))
    (w : World Table) :
    ((logged (handleMarkRead user.id data)).run (exec (postgres c) here) w).2.db =
      (markAsReadFor c here user senderId w).2.db := by
  unfold markAsReadFor
  by_cases htruthy : (Value.json (.str senderId)).truthy
  · have hfield : (data.field "senderId").truthy := by rw [hdata]; exact htruthy
    cases hfailure : c.failure .update with
    | some e =>
      rw [markAsRead_run_failed here user htruthy hfailure,
        markRead_run_failed here hfield hfailure]
    | none =>
      rw [markAsRead_run here user htruthy hfailure, markRead_run here hfield hfailure, hdata]
  · have hfield : ¬ (data.field "senderId").truthy := by rw [hdata]; exact htruthy
    rw [markAsRead_of_not_truthy user htruthy, handleMarkRead_of_not_truthy hfield]
    rfl

theorem writesScoped (hread : ReadsText c senderId) (w : World Table) :
    WritesScoped c here user senderId w where
  rest := by
    by_cases hne : senderId = []
    · have hfalsy : ¬ (Value.json (.str senderId)).truthy := by
        rw [truthy_str_iff]
        exact not_not_intro hne
      refine .inl ⟨.apiError 400 "Sender ID is required", ?_, .inl hne⟩
      rw [markAsReadFor, markAsRead_of_not_truthy user hfalsy]
      rfl
    · cases hfailure : c.failure .update with
      | some e =>
        have htruthy := (truthy_str_iff senderId).mpr hne
        exact .inl ⟨e, markAsRead_run_failed here user htruthy hfailure w, .inr hfailure⟩
      | none => exact .inr (markAsReadFor_marks here user hne hread hfailure w)
  socket args hdata := markRead_db here user hdata w
  delivered args := messageDelivered_run here (argument args 0) w

end Scoped

/-- A message from `alice` to `bob` that has not been seen. -/
def unreadMessage : Message where
  id := js "m1"
  senderId := alice.id
  receiverId := .str bob.id
  message := []
  isEncrypted := true
  status := .notDelivered
  createdAt := 0
  updatedAt := 0

def unreadWorld : World Table := ⟨⟨[unreadMessage], List.nodup_singleton _⟩, TypingTimers.empty⟩

theorem writesScoped_unreadWorld :
    ReadsText calm alice.id ∧ WritesScoped calm quiet bob alice.id unreadWorld := by
  have hread : ReadsText calm alice.id := rfl
  exact ⟨hread, writesScoped quiet bob hread unreadWorld⟩

end ChatMicroservices.StatusWrites

import ChatMicroservices.NotificationController
import Mathlib.Logic.Function.Basic

/-!
# Isolation of the users' notifications

The requests of one user, served one after another. Every repository call of theirs concerns
rows of that user only, so it does to the whole table what it does to the user's own rows.
-/

namespace ChatMicroservices.NotificationIsolation
open JavaScriptValues EffectPrograms KeyedTables NotificationsTable NotificationController

def own (userId : JsString) (t : Table) : Table := t.filter fun r => r.userId = userId

def others (userId : JsString) (t : Table) : Table := t.filter fun r => r.userId ≠ userId

/-- A row of the user under this id, and no other row can have it. -/
def Owns (userId : JsString) (t : Table) (id : JsString) : Prop :=
  ∃ r ∈ t.rows, r.id = id ∧ r.userId = userId

/-- A call about rows of the user only. -/
def OwnCall (userId : JsString) (t : Table) : Op → Prop
  | .find owner _ _ | .count owner _ | .findOne _ owner | .setRead owner => owner = userId
  | .insert entity => entity.userId = userId
  | .save entity | .remove entity => entity.userId = userId ∧ Owns userId t entity.id

/-- No row has the id that is generated next. -/
def NewIdFree (c : Conditions) (t : Table) : Prop := ∀ r ∈ t.rows, r.id ≠ c.newId

section Tables

variable {userId : JsString} {t : Table}

theorem owner_of_owns {id : JsString} (h : Owns userId t id) {r : Notification} (hr : r ∈ t.rows)
    (hid : r.id = id) : r.userId = userId := by
  obtain ⟨r', hr', hid', howner⟩ := h
  rw [t.eq_of_key_eq hr hr' (hid.trans hid'.symm)]
  exact howner

theorem find_own (key : JsString) :
    (own userId t).find key = (t.find key).filter fun r => r.userId = userId := by
  ext r
  rw [Option.filter_eq_some_iff, KeyedTable.find_eq_some, KeyedTable.find_eq_some]
  simp only [own, KeyedTable.filter, List.mem_filter, decide_eq_true_eq]
  tauto

theorem update_own (p : Notification → Bool) (f : Notification → Notification)
    (hf : ∀ r, (f r).id = r.id)
    (howner : ∀ r ∈ t.rows, p r = true → ((f r).userId = userId ↔ r.userId = userId)) :
    own userId (t.update p f hf) = (own userId t).update p f hf := by
  refine KeyedTable.eq_of_rows ?_
  simp only [own, KeyedTable.filter, KeyedTable.update, List.filter_map]
  refine congrArg _ (List.filter_congr fun r hr => ?_)
  by_cases hp : p r = true
  · simp [hp, howner r hr hp]
  · simp [hp]

theorem update_others (p : Notification → Bool) (f : Notification → Notification)
    (hf : ∀ r, (f r).id = r.id)
    (howner : ∀ r ∈ t.rows, p r = true → (f r).userId = userId ∧ r.userId = userId) :
    others userId (t.update p f hf) = others userId t := by
  refine KeyedTable.eq_of_rows ?_
  simp only [others, KeyedTable.filter, KeyedTable.update, List.filter_map]
  have hfilter : t.rows.filter ((fun r => decide (r.userId ≠ userId)) ∘
      fun r => if p r then f r else r) = t.rows.filter fun r => r.userId ≠ userId := by
    refine List.filter_congr fun r hr => ?_
    by_cases hp : p r = true
    · simp [hp, howner r hr hp]
    · simp [hp]
  have hsame : ∀ r ∈ t.rows.filter (fun r => r.userId ≠ userId), (if p r then f r else r) = r := by
    intro r hr
    obtain ⟨hmem, hne⟩ := List.mem_filter.mp hr
    refine if_neg fun hp => ?_
    exact of_decide_eq_true hne (howner r hmem hp).2
  rw [hfilter, List.map_congr_left hsame, List.map_id']

theorem remove_own (id : JsString) : own userId (t.filter fun r => r.id ≠ id) =
    (own userId t).filter fun r => r.id ≠ id := by
  refine KeyedTable.eq_of_rows ?_
  simp only [own, KeyedTable.filter, List.filter_filter]
  exact List.filter_congr fun r _ => Bool.and_comm _ _

theorem remove_others {id : JsString} (h : Owns userId t id) :
    others userId (t.filter fun r => r.id ≠ id) = others userId t := by
  refine KeyedTable.eq_of_rows ?_
  simp only [others, KeyedTable.filter, List.filter_filter]
  refine List.filter_congr fun r hr => ?_
  by_cases hid : r.id = id
  · simp [hid, owner_of_owns h hr hid]
  · simp [hid]

theorem insert_others {t' : Table} {row : Notification} (howner : row.userId = userId)
    (h : t.insert row = some t') : others userId t' = others userId t := by
  refine KeyedTable.eq_of_rows ?_
  simp [others, KeyedTable.filter, (KeyedTable.insert_eq_some h).1, howner]

/-- Both the table and the rows of the user take a new row. -/
theorem insert_own {row : Notification} (howner : row.userId = userId)
    (hfree : ∀ r ∈ t.rows, r.id ≠ row.id) :
    ∃ t', t.insert row = some t' ∧ (own userId t).insert row = some (own userId t') := by
  obtain ⟨t', ht'⟩ := KeyedTable.insert_of_free hfree
  have hfree' : ∀ r ∈ (own userId t).rows, r.id ≠ row.id :=
    fun r hr => hfree r (List.mem_of_mem_filter hr)
  obtain ⟨u, hu⟩ := KeyedTable.insert_of_free hfree'
  refine ⟨t', ht', ?_⟩
  rw [hu]
  refine congrArg some (KeyedTable.eq_of_rows ?_)
  rw [(KeyedTable.insert_eq_some hu).1]
  simp [own, KeyedTable.filter, (KeyedTable.insert_eq_some ht').1, howner]

theorem written_userId (now : ℕ) {entity stored : Notification} (h : entity.userId = userId)
    (h' : stored.userId = userId) : (written now entity stored).userId = userId := by
  rw [written]
  split
  · exact h'
  · exact h

theorem newestFirst_own : newestFirst userId (own userId t) = newestFirst userId t := by
  simp [newestFirst, own, KeyedTable.filter]

variable {d : Dialect} {c : Conditions}

/-- A call about rows of the user does to the table what it does to these rows. -/
theorem exec_own {op : Op} (hcall : OwnCall userId t op) (hfree : NewIdFree c t) :
    exec d c op (own userId t) = ((exec d c op t).1, own userId (exec d c op t).2) := by
  have hattempt : ∀ {α : Type} {r r' : Except JsError α × Table},
      r' = (r.1, own userId r.2) →
        c.attempt r' (own userId t) = ((c.attempt r t).1, own userId (c.attempt r t).2) := by
    rintro α r _ rfl
    rw [Conditions.attempt, Conditions.attempt]
    cases c.failure with
    | some e => rfl
    | none => rfl
  cases op with
  | find owner skip take =>
    obtain rfl := hcall
    refine hattempt ?_
    rw [newestFirst_own]
  | count owner read =>
    obtain rfl := hcall
    refine hattempt ?_
    simp [own, KeyedTable.filter, List.countP_filter, and_comm]
  | findOne id owner =>
    obtain rfl := hcall
    refine hattempt ?_
    simp only [find_own, Option.filter_filter, Bool.and_self]
  | save entity =>
    obtain ⟨howner, r, hr, hid, hr'⟩ := hcall
    refine hattempt ?_
    have hown : r ∈ (own userId t).rows := List.mem_filter.mpr ⟨hr, decide_eq_true hr'⟩
    rw [saveEntity_of_mem _ hr hid, saveEntity_of_mem _ hown hid]
    refine Prod.ext rfl (update_own _ _ (written_id c.now entity) fun r' hmem hp => ?_).symm
    have hr'' : r'.userId = userId := owner_of_owns ⟨r, hr, hid, hr'⟩ hmem (of_decide_eq_true hp)
    exact iff_of_true (written_userId c.now howner hr'') hr''
  | insert entity =>
    refine hattempt ?_
    rw [insertEntity, insertEntity]
    cases d.asColumns entity.title entity.message with
    | error e => rfl
    | ok columns =>
      have howner : (entity.toRow c.newId columns.1 columns.2 c.now).userId = userId := hcall
      obtain ⟨t', ht', hown⟩ := insert_own howner hfree
      simp only [ht', hown]
  | setRead owner =>
    obtain rfl := hcall
    refine hattempt (Prod.ext ?_ (update_own _ _ (markRead_id c.now) fun r _ _ => Iff.rfl).symm)
    simp only [own, KeyedTable.filter, List.countP_filter]
    refine congrArg Except.ok (List.countP_congr fun r _ => ?_)
    simp only [unread, Bool.and_eq_true, decide_eq_true_eq]
    tauto
  | remove entity => exact hattempt (Prod.ext rfl (remove_own entity.id).symm)

/-- A call about rows of the user leaves the rows of the others alone. -/
theorem exec_others {op : Op} (hcall : OwnCall userId t op) :
    others userId (exec d c op t).2 = others userId t := by
  have hattempt : ∀ {α : Type} {r : Except JsError α × Table},
      others userId r.2 = others userId t → others userId (c.attempt r t).2 = others userId t :=
    fun hr => attempt_state (P := fun u => others userId u = others userId t) rfl fun _ => hr
  cases op with
  | find owner skip take => exact hattempt rfl
  | count owner read => exact hattempt rfl
  | findOne id owner => exact hattempt rfl
  | save entity =>
    obtain ⟨howner, r, hr, hid, hr'⟩ := hcall
    refine hattempt ?_
    rw [saveEntity_of_mem _ hr hid]
    refine update_others _ _ (written_id c.now entity) fun r' hmem hp => ?_
    have hr'' : r'.userId = userId := owner_of_owns ⟨r, hr, hid, hr'⟩ hmem (of_decide_eq_true hp)
    exact ⟨written_userId c.now howner hr'', hr''⟩
  | insert entity =>
    refine hattempt ?_
    rcases insertEntity_state (d := d) (c := c) (t := t) entity with h | ⟨columns, -, hinsert⟩
    · rw [h]
    · have howner : (entity.toRow c.newId columns.1 columns.2 c.now).userId = userId := hcall
      exact insert_others howner hinsert
  | setRead owner =>
    obtain rfl := hcall
    refine hattempt (update_others _ _ (markRead_id c.now) fun r _ hp => ?_)
    simp only [unread, decide_eq_true_eq] at hp
    exact ⟨hp.1, hp.1⟩
  | remove entity => exact hattempt (remove_others hcall.2)

end Tables

/-- The calls that have been made, and the table. -/
abbrev State := ℕ × Table

section Runs

variable (d : Dialect) (conditions : ℕ → Conditions)

/-- A call under the conditions of its moment. -/
def call (op : Op) (s : State) : Ans op × State :=
  ((exec d (conditions s.1) op s.2).1, s.1 + 1, (exec d (conditions s.1) op s.2).2)

/-- Every call of the run is about rows of the user. -/
def Confined {α : Type} (userId : JsString) : Handler α → State → Prop
  | .done _, _ => True
  | .perform op next, s =>
    OwnCall userId s.2 op ∧ Confined userId (next (call d conditions op s).1)
      (call d conditions op s).2

/-- Ids that are generated from now on are not in the table. -/
def Fresh (s : State) : Prop := ∀ n, s.1 ≤ n → NewIdFree (conditions n) s.2

def ownState (userId : JsString) (s : State) : State := (s.1, own userId s.2)

variable {d conditions} {userId : JsString}

/-- A new row can only have the id that is generated at this moment. -/
theorem exec_ids {c : Conditions} {t : Table} {op : Op} (hcall : OwnCall userId t op)
    {r : Notification} (hr : r ∈ (exec d c op t).2.rows) :
    r.id = c.newId ∨ ∃ r' ∈ t.rows, r'.id = r.id := by
  have hattempt : ∀ {α : Type} {x : Except JsError α × Table},
      (r ∈ x.2.rows → r.id = c.newId ∨ ∃ r' ∈ t.rows, r'.id = r.id) →
        r ∈ (c.attempt x t).2.rows → r.id = c.newId ∨ ∃ r' ∈ t.rows, r'.id = r.id := by
    intro α x hx
    refine attempt_state (P := fun u => r ∈ u.rows →
      r.id = c.newId ∨ ∃ r' ∈ t.rows, r'.id = r.id) (fun hmem => ?_) fun _ => hx
    exact .inr ⟨r, hmem, rfl⟩
  cases op with
  | find owner skip take => exact hattempt (fun hmem => .inr ⟨r, hmem, rfl⟩) hr
  | count owner read => exact hattempt (fun hmem => .inr ⟨r, hmem, rfl⟩) hr
  | findOne id owner => exact hattempt (fun hmem => .inr ⟨r, hmem, rfl⟩) hr
  | save entity =>
    obtain ⟨-, stored, hstored, hid, -⟩ := hcall
    refine hattempt (fun hmem => .inr ?_) hr
    rw [saveEntity_of_mem _ hstored hid] at hmem
    exact KeyedTable.key_of_mem_update (written_id c.now entity) hmem
  | insert entity =>
    refine hattempt (fun hmem => ?_) hr
    rcases insertEntity_state (d := d) (c := c) (t := t) entity with h | ⟨columns, -, hinsert⟩
    · rw [h] at hmem
      exact .inr ⟨r, hmem, rfl⟩
    · rw [(KeyedTable.insert_eq_some hinsert).1] at hmem
      rcases List.mem_append.mp hmem with hmem | hmem
      · exact .inr ⟨r, hmem, rfl⟩
      · rw [List.mem_singleton.mp hmem]
        exact .inl rfl
  | setRead owner =>
    exact hattempt (fun hmem => .inr (KeyedTable.key_of_mem_update (markRead_id c.now) hmem)) hr
  | remove entity =>
    exact hattempt (fun hmem => .inr ⟨r, List.mem_of_mem_filter hmem, rfl⟩) hr

theorem fresh_call (hids : Function.Injective fun n => (conditions n).newId) {s : State}
    (hfresh : Fresh conditions s) {op : Op} (hcall : OwnCall userId s.2 op) :
    Fresh conditions (call d conditions op s).2 := by
  intro n hn r hr heq
  have hlater : s.1 + 1 ≤ n := hn
  rcases exec_ids hcall hr with hid | ⟨r', hr', hid⟩
  · have hsame : s.1 = n := hids (hid.symm.trans heq)
    omega
  · exact hfresh n (by omega) r' hr' (hid.trans heq)

theorem confined_others {α : Type} {p : Handler α} {s : State}
    (h : Confined d conditions userId p s) :
    others userId (p.run (call d conditions) s).2.2 = others userId s.2 := by
  induction p generalizing s with
  | done r => rfl
  | perform op next ih =>
    obtain ⟨hcall, hnext⟩ := h
    exact (ih _ hnext).trans (exec_others hcall)

/-- On the user's own rows the run is the same. -/
theorem confined_own (hids : Function.Injective fun n => (conditions n).newId) {α : Type}
    {p : Handler α} {s : State} (h : Confined d conditions userId p s)
    (hfresh : Fresh conditions s) :
    p.run (call d conditions) (ownState userId s) =
      ((p.run (call d conditions) s).1, ownState userId (p.run (call d conditions) s).2) ∧
    Fresh conditions (p.run (call d conditions) s).2 := by
  induction p generalizing s with
  | done r => exact ⟨rfl, hfresh⟩
  | perform op next ih =>
    obtain ⟨hcall, hnext⟩ := h
    have hown : call d conditions op (ownState userId s) =
        ((call d conditions op s).1, ownState userId (call d conditions op s).2) := by
      have hexec := exec_own (d := d) hcall (hfresh s.1 (le_refl s.1))
      rw [call, ownState, hexec]
      rfl
    rw [Program.run_perform, Program.run_perform, hown]
    exact ih _ hnext (fresh_call hids hfresh hcall)

theorem confined_answered {α : Type} {r : Except JsError α} {f : α → Handler HttpResult}
    {s : State} (h : ∀ a, r = .ok a → Confined d conditions userId (f a) s) :
    Confined d conditions userId (answered r f) s := by
  cases r with
  | ok a => exact h a rfl
  | error e => trivial

/-- A handler that begins with the search for a notification of the user. -/
theorem confined_findOne {notificationId : JsString} {f : Notification → Handler HttpResult}
    (s : State) (h : ∀ n s', n.userId = userId → Owns userId s'.2 n.id →
      Confined d conditions userId (f n) s') :
    Confined d conditions userId
      (.perform (.findOne notificationId userId) fun r => answered r (found f)) s := by
  refine ⟨rfl, confined_answered fun n hn => ?_⟩
  cases n with
  | none => trivial
  | some n =>
    obtain ⟨-, hmem, howner⟩ := exec_findOne_eq_some hn
    refine h n _ howner ?_
    rw [call, exec_findOne_state]
    exact ⟨n, hmem, rfl, howner⟩

/-- A new notification belongs to the user of the request. -/
theorem newNotification_owner {body : Value} {entity : NewNotification}
    (h : newNotification userId body = .ok entity) : entity.userId = userId := by
  obtain ⟨owner, -, h⟩ := ok_of_bind h
  dsimp only at h
  split at h
  · cases h
  · split at h
    · cases h
    · split at h
      · cases h
      · obtain rfl := Except.ok.inj h
        rfl

theorem handler_confined (request : Request) (s : State) :
    Confined d conditions userId (handler userId request) s := by
  cases request with
  | getNotifications limit offset =>
    rw [handler, getNotifications_eq]
    exact ⟨rfl, confined_answered fun _ _ => trivial⟩
  | getUnreadCount =>
    rw [handler, getUnreadCount_eq]
    exact ⟨rfl, confined_answered fun _ _ => trivial⟩
  | markAsRead notificationId =>
    rw [handler, markAsRead_eq]
    exact confined_findOne s fun n s' howner howns =>
      ⟨⟨howner, howns⟩, confined_answered fun _ _ => trivial⟩
  | markAllAsRead =>
    rw [handler, markAllAsRead_eq]
    exact ⟨rfl, confined_answered fun _ _ => trivial⟩
  | deleteNotification notificationId =>
    rw [handler, deleteNotification_eq]
    exact confined_findOne s fun n s' howner howns =>
      ⟨⟨howner, howns⟩, confined_answered fun _ _ => trivial⟩
  | createNotification body =>
    rw [handler, createNotification_eq]
    exact confined_answered fun entity hentity =>
      ⟨newNotification_owner hentity, confined_answered fun _ _ => trivial⟩

variable {ρ : Type}

variable (d conditions userId) in
/-- Serve a request of the user: the validators answer it themselves, or hand it to its handler
with some fields trimmed. -/
def serve (validate : Request → Except ρ Request) (request : Request) (s : State) :
    Except ρ (Except JsError HttpResult) × State :=
  match validate request with
  | .error answer => (.error answer, s)
  | .ok request =>
    let out := (handler userId request).run (call d conditions) s
    (.ok out.1, out.2)

variable (d conditions userId) in
/-- The answers to a sequence of requests, and the state after it. -/
def serveAll (validate : Request → Except ρ Request) :
    List Request → State → List (Except ρ (Except JsError HttpResult)) × State
  | [], s => ([], s)
  | request :: rest, s =>
    let out := serve d conditions userId validate request s
    let later := serveAll validate rest out.2
    (out.1 :: later.1, later.2)

variable {validate : Request → Except ρ Request}

theorem serve_others (request : Request) (s : State) :
    others userId (serve d conditions userId validate request s).2.2 = others userId s.2 := by
  rw [serve]
  cases validate request with
  | error answer => rfl
  | ok request => exact confined_others (handler_confined request s)

variable (d userId validate) in
/-- On the user's own rows a request is answered alike. -/
theorem serve_own (hids : Function.Injective fun n => (conditions n).newId) (request : Request)
    {s : State} (hfresh : Fresh conditions s) :
    serve d conditions userId validate request (ownState userId s) =
      ((serve d conditions userId validate request s).1,
        ownState userId (serve d conditions userId validate request s).2) ∧
    Fresh conditions (serve d conditions userId validate request s).2 := by
  rw [serve, serve]
  cases validate request with
  | error answer => exact ⟨rfl, hfresh⟩
  | ok request =>
    obtain ⟨hrun, hlater⟩ := confined_own hids (handler_confined (d := d) request s) hfresh
    exact ⟨congrArg (fun out => (Except.ok out.1, out.2)) hrun, hlater⟩

theorem serveAll_others (requests : List Request) (s : State) :
    others userId (serveAll d conditions userId validate requests s).2.2 = others userId s.2 := by
  induction requests generalizing s with
  | nil => rfl
  | cons request rest ih => exact (ih _).trans (serve_others request s)

theorem serveAll_own (hids : Function.Injective fun n => (conditions n).newId)
    (requests : List Request) {s : State} (hfresh : Fresh conditions s) :
    (serveAll d conditions userId validate requests (ownState userId s)).1 =
      (serveAll d conditions userId validate requests s).1 := by
  induction requests generalizing s with
  | nil => rfl
  | cons request rest ih =>
    obtain ⟨hserve, hlater⟩ := serve_own d userId validate hids request hfresh
    simp only [serveAll, hserve]
    exact congrArg _ (ih hlater)

/-- The requests of a user leave the rows of the others alone, and as long as generated ids are
new, their answers are the same for any two tables that agree on the rows of the user. -/
theorem isolated (hids : Function.Injective fun n => (conditions n).newId)
    (requests : List Request) {t t' : Table} (hfresh : Fresh conditions (0, t))
    (hfresh' : Fresh conditions (0, t')) (h : own userId t = own userId t') :
    others userId (serveAll d conditions userId validate requests (0, t)).2.2 = others userId t ∧
      (serveAll d conditions userId validate requests (0, t)).1 =
        (serveAll d conditions userId validate requests (0, t')).1 := by
  refine ⟨serveAll_others requests (0, t), ?_⟩
  have hsame : ownState userId (0, t) = ownState userId (0, t') := congrArg (Prod.mk 0) h
  rw [← serveAll_own hids requests hfresh, ← serveAll_own hids requests hfresh', hsame]

end Runs

def foreignRow : Notification := { unreadRow with id := js "n2", userId := js "u2" }

def sharedTable : Table := ⟨[unreadRow, foreignRow], by decide⟩

/-- Calls succeed, and ids count in unary. -/
def counting (n : ℕ) : Conditions := ⟨n, List.replicate n 0, none⟩

/-- The user reads its own notification, tries to delete the other one and to create one for
the other user. -/
def session : List Request :=
  [.markAsRead unreadRow.id, .deleteNotification foreignRow.id, .createNotification (.json (.obj
    [(js "userId", .str foreignRow.userId), (js "type", .str (js "alert")),
      (js "title", .str (js "t")), (js "message", .str (js "m"))])), .getNotifications [] []]

/-- No validator objects. -/
def accept (request : Request) : Except Empty Request := .ok request

theorem counting_fresh {t : Table} (h : ∀ r ∈ t.rows, 0x6E ∈ r.id) : Fresh counting (0, t) := by
  intro n _ r hr heq
  have hmem : 0x6E ∈ (counting n).newId := heq ▸ h r hr
  exact absurd (List.eq_of_mem_replicate hmem) (by decide)

theorem session_isolated :
    others unreadRow.userId (serveAll plain counting unreadRow.userId accept session
        (0, sharedTable)).2.2 = others unreadRow.userId sharedTable ∧
      (serveAll plain counting unreadRow.userId accept session (0, sharedTable)).1 =
        (serveAll plain counting unreadRow.userId accept session (0, oneRow)).1 :=
  isolated (List.replicate_left_injective 0) session (counting_fresh (by decide))
    (counting_fresh (by decide)) (KeyedTable.eq_of_rows (by decide))

end ChatMicroservices.NotificationIsolation

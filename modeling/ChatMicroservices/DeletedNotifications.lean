import ChatMicroservices.ConcurrentPrograms
import ChatMicroservices.NotificationController

/-!
# Deleted notifications

Requests of one user whose repository calls interleave. A notification can only come back by a
`save` that no longer meets the row that was found for it; as long as there is none, rows only
disappear, and a row that was deleted is gone for good.
-/

namespace ChatMicroservices.DeletedNotifications
open JavaScriptValues EffectPrograms ConcurrentPrograms KeyedTables NotificationsTable
open NotificationController

/-- The table has a notification with this id. -/
def Has (t : Table) (id : JsString) : Prop := ∃ r ∈ t.rows, r.id = id

instance (t : Table) (id : JsString) : Decidable (Has t id) :=
  inferInstanceAs (Decidable (∃ r ∈ t.rows, r.id = id))

/-- No notification is in the table that was not there before. -/
def Shrinks (t t' : Table) : Prop := ∀ id, Has t' id → Has t id

theorem Shrinks.refl (t : Table) : Shrinks t t := fun _ h => h

theorem Shrinks.trans {t t' t'' : Table} (h : Shrinks t t') (h' : Shrinks t' t'') :
    Shrinks t t'' := fun id hid => h id (h' id hid)

theorem shrinks_update (t : Table) (p : Notification → Bool) (f : Notification → Notification)
    (hf : ∀ r, (f r).id = r.id) : Shrinks t (t.update p f hf) := by
  rintro id ⟨r, hr, rfl⟩
  exact KeyedTable.key_of_mem_update hf hr

/-- A call that saves an entity meets its row, unless it fails. -/
def MeetsRow (c : Conditions) (t : Table) : Op → Prop
  | .save entity => c.failure = none → Has t entity.id
  | _ => True

instance (c : Conditions) (t : Table) : DecidablePred (MeetsRow c t) := fun op => by
  cases op with
  | save entity => exact inferInstanceAs (Decidable (c.failure = none → Has t entity.id))
  | _ => exact inferInstanceAs (Decidable True)

/-- The insertion of a new notification. -/
def Inserts : Op → Prop
  | .insert _ => True
  | _ => False

section Calls

variable {d : Dialect} {c : Conditions} {t : Table}

theorem exec_shrinks {op : Op} (hop : ¬ Inserts op) (hmeets : MeetsRow c t op) :
    Shrinks t (exec d c op t).2 := by
  have hattempt : ∀ {α : Type} {r : Except JsError α × Table},
      (c.failure = none → Shrinks t r.2) → Shrinks t (c.attempt r t).2 :=
    attempt_state (.refl t)
  cases op with
  | find userId skip take => exact hattempt fun _ => .refl t
  | count userId read => exact hattempt fun _ => .refl t
  | findOne id userId => exact hattempt fun _ => .refl t
  | save entity =>
    refine hattempt fun hfail => ?_
    obtain ⟨r, hr, hid⟩ := hmeets hfail
    rw [saveEntity_of_mem _ hr hid]
    exact shrinks_update t _ _ (written_id c.now entity)
  | insert entity => exact absurd trivial hop
  | setRead userId => exact hattempt fun _ => shrinks_update t _ _ (markRead_id c.now)
  | remove entity =>
    refine hattempt fun _ => ?_
    rintro id ⟨r, hr, rfl⟩
    exact ⟨r, List.mem_of_mem_filter hr, rfl⟩

end Calls

/-- A request other than the creation of a notification. -/
def Existing : Request → Prop
  | .createNotification _ => False
  | _ => True

theorem handler_issues (userId : JsString) {request : Request} (h : Existing request) :
    (handler userId request).Issues fun op => ¬ Inserts op := by
  cases request with
  | getNotifications limit offset =>
    rw [handler, getNotifications_eq]
    exact ⟨id, fun r => answered_issues r fun _ => trivial⟩
  | getUnreadCount =>
    rw [handler, getUnreadCount_eq]
    exact ⟨id, fun r => answered_issues r fun _ => trivial⟩
  | markAsRead notificationId =>
    rw [handler, markAsRead_eq]
    exact ⟨id, fun r => answered_issues r fun n => found_issues n fun notification =>
      ⟨id, fun r => answered_issues r fun _ => trivial⟩⟩
  | markAllAsRead =>
    rw [handler, markAllAsRead_eq]
    exact ⟨id, fun r => answered_issues r fun _ => trivial⟩
  | deleteNotification notificationId =>
    rw [handler, deleteNotification_eq]
    exact ⟨id, fun r => answered_issues r fun n => found_issues n fun notification =>
      ⟨id, fun r => answered_issues r fun _ => trivial⟩⟩
  | createNotification body => exact h.elim

/-- The answer of a deletion that went through. -/
def deleted : HttpResult := .json 200 "Notification deleted successfully" .none

section Pools

variable {ι : Type} (d : Dialect)

def calls : Semantics ι Conditions Table Ans := fun _ c op t => some (exec d c op t)

/-- Calls of which every save meets its row. -/
def meetingCalls : Semantics ι Conditions Table Ans :=
  restrict (calls d) fun _ c op t => MeetsRow c t op

/-- The requests of a user over a table, before their first calls. -/
def start (userId : JsString) (requests : ι → Request) (t : Table) :
    Pool ι Ans JsError HttpResult Table := ⟨t, fun i => handler userId (requests i)⟩

/-- Every request lets rows disappear, and relies on the others to do no more. -/
def shrinking : Protocol ι Table where
  inv _ := True
  rely _ := Shrinks
  guar _ := Shrinks
  rely_refl _ := .refl
  rely_trans _ := Shrinks.trans
  compatible _ := fun _ h => h

/-- What a request leaves behind: a deletion that went through, no such notification. -/
def Leaves (request : Request) (r : Except JsError HttpResult) (t : Table) : Prop :=
  r = .ok deleted → ∀ id key, request = .deleteNotification id → d.asUuid id = .ok key →
    ¬ Has t key

variable {d} {userId : JsString}

theorem meetingCalls_eq_some {i : ι} {c : Conditions} {op : Op} {t u : Table} {a : Ans op}
    (h : meetingCalls d i c op t = some (a, u)) : MeetsRow c t op ∧ exec d c op t = (a, u) := by
  obtain ⟨hmeets, hcall⟩ := restrict_eq_some.mp h
  exact ⟨hmeets, Option.some.inj hcall⟩

/-- A statement other than an `INSERT`, and what follows its answer. -/
theorem safe_perform {i : ι} {post : Except JsError HttpResult → Table → Prop} {op : Op}
    {next : Ans op → Handler HttpResult} (hop : ¬ Inserts op)
    (hnext : ∀ u c a v, exec d c op u = (a, v) →
      Safe (meetingCalls d) Anything shrinking i post (next a) v) (t : Table) :
    Safe (meetingCalls d) Anything shrinking i post (.perform op next) t := by
  intro u _ _ _ c a v hcall
  obtain ⟨hmeets, hexec⟩ := meetingCalls_eq_some hcall
  have hshrinks := exec_shrinks (d := d) hop hmeets
  rw [hexec] at hshrinks
  exact ⟨trivial, hshrinks, hnext u c a v hexec⟩

theorem safe_of_issues {i : ι} {post : Except JsError HttpResult → Table → Prop}
    {p : Handler HttpResult} (hp : p.Issues fun op => ¬ Inserts op) (hpost : ∀ r t, post r t)
    (t : Table) : Safe (meetingCalls d) Anything shrinking i post p t := by
  induction p generalizing t with
  | done r => exact fun u _ _ => hpost r u
  | perform op next ih => exact safe_perform hp.1 (fun _ _ a v _ => ih a (hp.2 a) v) t

/-- The row that a deletion has found is gone when the deletion has gone through. -/
theorem safe_removeFound {i : ι} {notificationId : JsString} {notification : Notification}
    (hkey : d.asUuid notificationId = .ok notification.id) (t : Table) :
    Safe (meetingCalls d) Anything shrinking i (Leaves d (.deleteNotification notificationId))
      (removeFound notification) t := by
  refine safe_perform id (fun u c a v hexec => ?_) t
  cases a with
  | error e =>
    intro w _ _ h
    cases h
  | ok r =>
    have hgone : ¬ Has v notification.id := by
      rw [exec, Conditions.attempt] at hexec
      cases hfail : c.failure with
      | some e =>
        rw [hfail] at hexec
        cases hexec
      | none =>
        rw [hfail] at hexec
        obtain rfl := (Prod.mk.inj hexec).2
        rintro ⟨r, hr, hid⟩
        have hne := List.of_mem_filter hr
        simp [hid] at hne
    intro w hlater _ _ id' key hid hkey'
    obtain rfl := Request.deleteNotification.inj hid
    obtain rfl := Except.ok.inj (hkey.symm.trans hkey')
    exact fun hhas => hgone (hlater _ hhas)

theorem safe_deleteNotification {i : ι} (notificationId : JsString) (t : Table) :
    Safe (meetingCalls d) Anything shrinking i (Leaves d (.deleteNotification notificationId))
      (deleteNotification userId notificationId) t := by
  rw [deleteNotification_eq]
  refine safe_perform id (fun u c a v hexec => ?_) t
  cases a with
  | error e =>
    intro w _ _ h
    cases h
  | ok n =>
    cases n with
    | none =>
      intro w _ _ h
      cases h
    | some notification =>
      have hanswer : (exec d c (.findOne notificationId userId) u).1 = .ok (some notification) := by
        rw [hexec]
      exact safe_removeFound (exec_findOne_eq_some hanswer).1 v

theorem safe_handler {i : ι} {request : Request} (h : Existing request) (t : Table) :
    Safe (meetingCalls d) Anything shrinking i (Leaves d request) (handler userId request) t := by
  cases request with
  | deleteNotification notificationId => exact safe_deleteNotification notificationId t
  | _ =>
    refine safe_of_issues (handler_issues userId h) (fun r t _ id key hid => ?_) t
    cases hid

/-- In every run in which each `save` meets the row that was found for it, a notification whose
deletion was answered with 200 is in no later state of the table. -/
theorem stays_deleted [DecidableEq ι] {requests : ι → Request} (h : ∀ i, Existing (requests i))
    {t : Table} {p q : Pool ι Ans JsError HttpResult Table}
    (before : Steps (meetingCalls d) Anything (start userId requests t) p)
    (later : Steps (meetingCalls d) Anything p q) {i : ι} {notificationId key : JsString}
    (hrequest : requests i = .deleteNotification notificationId)
    (hkey : d.asUuid notificationId = .ok key) (hdeleted : p.result i = some (.ok deleted)) :
    ¬ Has q.shared key := by
  have hstart : ∀ i, Safe (meetingCalls d) Anything shrinking i (Leaves d (requests i))
      ((start userId requests t).threads i) (start userId requests t).shared :=
    fun i => safe_handler (h i) t
  have hgone : ¬ Has p.shared key :=
    before.post trivial hstart hdeleted rfl notificationId key hrequest hkey
  have hsafe : ∀ i, Safe (meetingCalls d) Anything shrinking i (Leaves d (requests i))
      (p.threads i) p.shared := (before.safe trivial hstart).2
  have hshrinks : Shrinks p.shared q.shared :=
    later.along Shrinks.refl Shrinks.trans (fun _ _ _ h => h) trivial hsafe
  exact fun hhas => hgone (hshrinks key hhas)

end Pools

/-- The notification is marked as read and deleted at the same time. -/
def requests : Bool → Request
  | true => .deleteNotification unreadRow.id
  | false => .markAsRead unreadRow.id

/-- Both requests find the notification, then it is deleted. -/
def afterDeletion : List (Bool × Conditions) := [(false, calm), (true, calm), (true, calm)]

def reached (schedule : List (Bool × Conditions)) : Pool Bool Ans JsError HttpResult Table :=
  reach (calls plain) Anything schedule (start unreadRow.userId requests oneRow)

def reachedMeeting (schedule : List (Bool × Conditions)) :
    Pool Bool Ans JsError HttpResult Table :=
  reach (meetingCalls plain) Anything schedule (start unreadRow.userId requests oneRow)

/-- The `save` of the other request inserts the notification again. -/
theorem resurrected : ¬ ∀ p q, Steps (calls plain) Anything
    (start unreadRow.userId requests oneRow) p → Steps (calls plain) Anything p q →
      p.result true = some (.ok deleted) → ¬ Has q.shared unreadRow.id := by
  intro h
  have hreached : (reached afterDeletion).result true = some (.ok deleted) := by decide +kernel
  have hback : Has (reach (calls plain) Anything [(false, calm)]
      (reached afterDeletion)).shared unreadRow.id := by decide +kernel
  exact h _ _ (steps_reach afterDeletion _) (steps_reach [(false, calm)] _) hreached hback

/-- As long as that `save` has not been performed, the notification is gone. -/
theorem afterDeletion_gone : ¬ Has (reachedMeeting afterDeletion).shared unreadRow.id :=
  stays_deleted (fun i => by cases i <;> trivial) (steps_reach afterDeletion _) (.refl _)
    (show requests true = .deleteNotification unreadRow.id from rfl) rfl (by decide +kernel)

end ChatMicroservices.DeletedNotifications

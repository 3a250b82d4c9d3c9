import ChatMicroservices.StatusWrites

/-!
# Read receipts

`markRead` tells the sender that the messages were read; `markAsRead` runs the same update and
tells nobody. So the two agree only where neither of them updates anything: where the sender is
not given, and where the update fails.
-/

namespace ChatMicroservices.ReadReceipts
open JavaScriptValues EffectPrograms KeyedTables MessagesTable ChatEffects SocketHandlers
open MessageController StatusWrites

/-- The events that are emitted to the room of a user. -/
def eventsTo (userId : JsString) (ops : List Op) : List ServerEvent :=
  ops.filterMap fun
    | .emit room event => if room = .json (.str userId) then some event else none
    | _ => none

/-- A message from the sender to the user that was not seen is `Seen` now. -/
def SomeSeen (senderId userId : JsString) (t t' : Table) : Prop :=
  ∃ m ∈ t.rows, m.senderId = senderId ∧ m.receiverId = .str userId ∧ m.status ≠ .seen ∧
    ∃ m' ∈ t'.rows, m'.id = m.id ∧ m'.status = .seen

theorem not_someSeen_self {senderId userId : JsString} (t : Table) :
    ¬ SomeSeen senderId userId t t := by
  rintro ⟨m, hm, -, -, hstatus, m', hm', hid, hseen⟩
  rw [t.eq_of_key_eq hm' hm hid] at hseen
  exact hstatus hseen

section Paths

variable (c : Conditions) (here : Surroundings) (user : AuthUser) (senderId : JsString)
  (args : List Value) (w : World Table)

/-- The events to the sender, and the table, after a request. -/
def viaRest : List ServerEvent × Table :=
  (eventsTo senderId
    (effects ((markAsRead user (.json (.str senderId))).trace (exec (postgres c) here) w)),
    ((markAsRead user (.json (.str senderId))).run (exec (postgres c) here) w).2.db)

/-- The same, after an event on the socket. -/
def viaSocket : List ServerEvent × Table :=
  (eventsTo senderId
    (effects ((listener user .markRead args).trace (exec (postgres c) here) w)),
    ((listener user .markRead args).run (exec (postgres c) here) w).2.db)

/-- Whichever path the user takes, the sender is told what was read, and both come to the same. -/
structure ReceiptsAgree : Prop where
  rest : SomeSeen senderId user.id w.db (viaRest c here user senderId w).2 →
    .messageRead user.id ∈ (viaRest c here user senderId w).1
  socket : SomeSeen senderId user.id w.db (viaSocket c here user senderId args w).2 →
    .messageRead user.id ∈ (viaSocket c here user senderId args w).1
  table : (viaRest c here user senderId w).2 = (viaSocket c here user senderId args w).2
  events : (viaRest c here user senderId w).1 = (viaSocket c here user senderId args w).1

end Paths

section Agree

variable {c : Conditions} {here : Surroundings} {user : AuthUser} {senderId : JsString}
  {args : List Value} {w : World Table}

/-- `markAsRead` emits nothing. -/
theorem viaRest_events : (viaRest c here user senderId w).1 = [] := by
  unfold viaRest
  by_cases htruthy : (Value.json (.str senderId)).truthy
  · rw [markAsRead_eq user htruthy, Program.trace_tryCatch, Program.run_bind,
      Program.trace_bind, markSeen_trace]
    cases hfailure : c.failure .update with
    | none =>
      rw [markSeen_run here hfailure]
      rfl
    | some e =>
      rw [markSeen_run_failed here hfailure]
      rfl
  · rw [markAsRead_of_not_truthy user htruthy]
    rfl

/-- `markRead` tells the sender whenever the update succeeds. -/
theorem viaSocket_events (hargs : (argument args 0).field "senderId" = .json (.str senderId))
    (hne : senderId ≠ []) (hok : c.failure .update = none) :
    (viaSocket c here user senderId args w).1 = [.messageRead user.id] := by
  have htruthy : ((argument args 0).field "senderId").truthy := by
    rw [hargs]
    exact (truthy_str_iff senderId).mpr hne
  rw [viaSocket, listener, handleMarkRead_eq htruthy, hargs, Program.trace_tryCatch,
    Program.run_bind, Program.trace_bind, markSeen_trace, markSeen_run here hok]
  simp [Program.resume, perform, eventsTo]

/-- An event on the socket that is ignored, or whose update fails, changes nothing. -/
theorem viaSocket_idle (hargs : (argument args 0).field "senderId" = .json (.str senderId))
    (hidle : senderId = [] ∨ c.failure .update ≠ none) :
    viaSocket c here user senderId args w = ([], w.db) := by
  by_cases htruthy : ((argument args 0).field "senderId").truthy
  · obtain ⟨e, hfailure⟩ : ∃ e, c.failure .update = some e := by
      rcases hidle with hempty | hfails
      · rw [hargs, truthy_str_iff] at htruthy
        exact absurd hempty htruthy
      · exact Option.ne_none_iff_exists'.mp hfails
    rw [viaSocket, listener, handleMarkRead_eq htruthy, Program.trace_tryCatch,
      Program.run_tryCatch, Program.run_bind, Program.trace_bind, markSeen_trace,
      markSeen_run_failed here hfailure]
    rfl
  · rw [viaSocket, listener, handleMarkRead_of_not_truthy htruthy]
    rfl

/-- The paths agree exactly where no update is made. -/
theorem receiptsAgree_iff
    (hargs : (argument args 0).field "senderId" = .json (.str senderId)) :
    ReceiptsAgree c here user senderId args w ↔ senderId = [] ∨ c.failure .update ≠ none := by
  constructor
  · intro h
    by_contra hactive
    push Not at hactive
    have hevents := h.events
    rw [viaRest_events, viaSocket_events hargs hactive.1 hactive.2] at hevents
    cases hevents
  · intro hidle
    have hsocket : viaSocket c here user senderId args w = ([], w.db) :=
      viaSocket_idle hargs hidle
    have htable : (viaRest c here user senderId w).2 = w.db := by
      have hdb := markRead_db (c := c) here user hargs w
      rw [viaRest, ← markAsReadFor, ← hdb]
      exact congrArg Prod.snd hsocket
    constructor
    · intro hseen
      rw [htable] at hseen
      exact absurd hseen (not_someSeen_self _)
    · intro hseen
      rw [hsocket] at hseen
      exact absurd hseen (not_someSeen_self _)
    · rw [htable, hsocket]
    · rw [viaRest_events, hsocket]

end Agree

/-- The argument of a `markRead` event for the messages of `alice`. -/
def readAlice : Value := .json (.obj [(js "senderId", .str alice.id)])

theorem receiptsAgree_nobody :
    (argument [.json (.obj [(js "senderId", .str [])])] 0).field "senderId" = .json (.str []) ∧
      ReceiptsAgree calm quiet bob [] [.json (.obj [(js "senderId", .str [])])] unreadWorld := by
  have hargs : (argument [.json (.obj [(js "senderId", .str [])])] 0).field "senderId" =
      .json (.str []) := by decide +kernel
  exact ⟨hargs, (receiptsAgree_iff hargs).mpr (.inl rfl)⟩

/-- `bob` reads the message with a request, and `alice` is not told. -/
theorem receiptsAgree_fails :
    (argument [readAlice] 0).field "senderId" = .json (.str alice.id) ∧
      SomeSeen alice.id bob.id unreadWorld.db (viaRest calm quiet bob alice.id unreadWorld).2 ∧
      .messageRead bob.id ∉ (viaRest calm quiet bob alice.id unreadWorld).1 ∧
      ¬ ReceiptsAgree calm quiet bob alice.id [readAlice] unreadWorld := by
  have hargs : (argument [readAlice] 0).field "senderId" = .json (.str alice.id) := by
    decide +kernel
  have hseen : SomeSeen alice.id bob.id unreadWorld.db
      (viaRest calm quiet bob alice.id unreadWorld).2 := by
    have hread : ReadsText calm alice.id := rfl
    obtain ⟨n, w', hrun, hmarks, -⟩ :=
      markAsReadFor_marks quiet bob alice.id_ne hread rfl unreadWorld
    have hdb : (viaRest calm quiet bob alice.id unreadWorld).2 = w'.db :=
      congrArg (fun outcome => outcome.2.db) hrun
    rw [hdb]
    refine ⟨unreadMessage, List.mem_singleton_self _, rfl, rfl, by decide, ?_⟩
    refine ⟨seenFrom alice.id bob.id calm.now unreadMessage, ?_, rfl, rfl⟩
    rw [hmarks.rows]
    exact List.mem_map_of_mem (List.mem_singleton_self _)
  have hnot : .messageRead bob.id ∉ (viaRest calm quiet bob alice.id unreadWorld).1 := by
    rw [viaRest_events]
    exact List.not_mem_nil
  exact ⟨hargs, hseen, hnot, fun h => hnot (h.rest hseen)⟩

end ChatMicroservices.ReadReceipts

import ChatMicroservices.MessageNotification
import ChatMicroservices.PresenceExpiry

/-!
# Presence after a crash

A node that crashes disconnects none of its sockets, and the server sees nothing of it. The
socket set of a user vanishes an hour after the last connect of the user, but only a
disconnect removes the user from the set of online users.
-/

namespace ChatMicroservices.PresenceRecovery
open JavaScriptValues PresenceStore MessagesTable ChatEffects MessageNotification
open PresenceExpiry (Server serverAfter serverAfter_concat serverAfter_tracks Remembered idle ttl
  reply)

/-- A node makes a request to the store, a node crashes, or time passes. -/
inductive Event (Node : Type) where
  | request (node : Node) (r : Request)
  | crash (node : Node)
  | pass (milliseconds : ℕ)
  deriving DecidableEq

/-- What the server sees of an event. -/
def Event.seen {Node : Type} : Event Node → Option PresenceExpiry.Event
  | request _ r => some (.request r)
  | crash _ => none
  | pass milliseconds => some (.pass milliseconds)

section Runs

variable {Node : Type}

def seen (run : List (Event Node)) : List PresenceExpiry.Event := run.filterMap Event.seen

/-- The socket was connected to the node and has not been disconnected, and the node has not
crashed since. -/
def Surviving (run : List (Event Node)) (node : Node) (userId socketId : JsString) : Prop :=
  ∃ before rest, run = before ++ .request node (.call (.connect userId socketId)) :: rest ∧
    .request node (.call (.disconnect userId socketId)) ∉ rest ∧ .crash node ∉ rest

/-- Only surviving sockets are disconnected, so those of a crashed node never are. -/
def Silent (run : List (Event Node)) : Prop :=
  ∀ before node userId socketId rest,
    run = before ++ .request node (.call (.disconnect userId socketId)) :: rest →
      Surviving before node userId socketId

/-- The sockets of the user that were not disconnected have died in crashes. -/
def Bereft (run : List (Event Node)) (userId : JsString) : Prop :=
  ∀ node socketId, ¬ Surviving run node userId socketId

end Runs

/-- The user has not connected, or since the last connect of the user a disconnect of the user
met no other socket that was remembered. -/
def Withdrawn (history : List PresenceExpiry.Event) (userId : JsString) : Prop :=
  (∀ s, .request (.call (.connect userId s)) ∉ history) ∨
    ∃ before t rest, history = before ++ .request (.call (.disconnect userId t)) :: rest ∧
      (∀ x, Remembered before userId x → x = t) ∧
      ∀ s, .request (.call (.connect userId s)) ∉ rest

section Withdrawal

variable {history : List PresenceExpiry.Event} {event : PresenceExpiry.Event} {u : JsString}

theorem withdrawn_concat : Withdrawn (history ++ [event]) u ↔
    (∀ s, event ≠ .request (.call (.connect u s))) ∧ (Withdrawn history u ∨
      ∃ t, event = .request (.call (.disconnect u t)) ∧ ∀ x, Remembered history u x → x = t) := by
  constructor
  · rintro (hnever | ⟨before, t, rest, hsplit, honly, hnone⟩)
    · refine ⟨fun s hs => hnever s (by simp [hs]), .inl (.inl fun s hs => hnever s ?_)⟩
      exact List.mem_append_left _ hs
    · rcases List.eq_nil_or_concat rest with rfl | ⟨init, last, rfl⟩
      · obtain ⟨rfl, hlast⟩ := List.append_inj' hsplit rfl
        obtain rfl := List.head_eq_of_cons_eq hlast
        exact ⟨fun s => nofun, .inr ⟨t, rfl, honly⟩⟩
      · rw [List.concat_eq_append] at hsplit hnone
        rw [← List.cons_append, ← List.append_assoc] at hsplit
        obtain ⟨hinit, hlast⟩ := List.append_inj' hsplit rfl
        obtain rfl := List.head_eq_of_cons_eq hlast
        refine ⟨fun s hs => hnone s (by simp [hs]), .inl (.inr ⟨before, t, init, hinit, honly, ?_⟩)⟩
        exact fun s hs => hnone s (List.mem_append_left _ hs)
  · rintro ⟨hconnect, (hnever | ⟨before, t, rest, rfl, honly, hnone⟩) | ⟨t, rfl, honly⟩⟩
    · refine .inl fun s hs => ?_
      rcases List.mem_append.mp hs with hs | hs
      · exact hnever s hs
      · exact hconnect s (List.mem_singleton.mp hs).symm
    · refine .inr ⟨before, t, rest ++ [event], by simp, honly, fun s hs => ?_⟩
      rcases List.mem_append.mp hs with hs | hs
      · exact hnone s hs
      · exact hconnect s (List.mem_singleton.mp hs).symm
    · exact .inr ⟨history, t, [], rfl, honly, fun s => List.not_mem_nil⟩

/-- What one event does to the set of online users. -/
theorem online_concat : u ∈ (serverAfter (history ++ [event])).sets keyOnline ↔
    (∃ s, event = .request (.call (.connect u s))) ∨ (u ∈ (serverAfter history).sets keyOnline ∧
      ¬ ∃ t, event = .request (.call (.disconnect u t)) ∧
        ∀ x, Remembered history u x → x = t) := by
  have htracks := serverAfter_tracks history
  cases event with
  | request r =>
    cases r with
    | call c =>
      cases c with
      | connect v t =>
        rw [serverAfter_concat, PresenceExpiry.sets_connect, RedisPresence.mem_connected_keyOnline]
        by_cases huv : u = v
        · subst huv
          by_cases hempty : (serverAfter history).sets (keySockets u) = ∅
          · simp [hempty]
          · simp [htracks.populated u hempty]
        · simp [huv, Ne.symm huv]
      | disconnect v t =>
        rw [serverAfter_concat, PresenceExpiry.sets_disconnect,
          RedisPresence.mem_disconnected_keyOnline]
        by_cases huv : u = v
        · subst huv
          simp [Finset.eq_empty_iff_forall_notMem, htracks.remembered, and_comm, not_imp_not]
        · simp [huv, Ne.symm huv]
    | isOnline v =>
      rw [serverAfter_concat]
      simp [(PresenceExpiry.step_request _ _).2.1, RedisPresence.step_isOnline]
    | getOnlineUserIds v =>
      rw [serverAfter_concat]
      simp [(PresenceExpiry.step_request _ _).2.1, RedisPresence.step_getOnlineUserIds]
  | pass milliseconds =>
    have hexpired : ¬ ({ serverAfter history with
        now := (serverAfter history).now + milliseconds } : Server).Expired keyOnline := by
      rintro ⟨d, hd, -⟩
      simp [htracks.online] at hd
    rw [serverAfter_concat]
    simp [PresenceExpiry.step, Server.purge, hexpired]

theorem offline_iff : u ∉ (serverAfter history).sets keyOnline ↔ Withdrawn history u := by
  induction history using List.reverseRecOn with
  | nil =>
    have hnever : Withdrawn [] u := .inl fun s => List.not_mem_nil
    simp [hnever, serverAfter, PresenceExpiry.fresh]
  | append_singleton history event ih =>
    rw [online_concat, withdrawn_concat, ← ih]
    rw [not_or, not_exists, not_and_or, not_not]

end Withdrawal

/-- The message handler asks the store. -/
def answering (s : Server) (here : Surroundings) : Surroundings where
  __ := here
  isOnline
    | .json (.str u) =>
      decide ((PresenceExpiry.step s (.request (.isOnline u))).1 = some (.ok (.flag true)))
    | userId => here.isOnline userId

/-- The user counts as offline, and messages to the user are published as notifications. -/
structure Recovered (history : List PresenceExpiry.Event) (userId : JsString) : Prop where
  offline : reply history (.isOnline userId) = some (.ok (.flag false))
  unlisted : ∀ excludeUserId ids,
    reply history (.getOnlineUserIds excludeUserId) = some (.ok (.userIds ids)) → userId ∉ ids
  notified : ∀ {τ : Type} (repo : Repository τ) (here : Surroundings)
    (args : IncomingMessageNotification) (w : World τ), args.receiverId = .json (.str userId) →
      ∃ payload, .publish payload ∈ effects ((handleMessageReceived args).trace
        (exec repo (answering (serverAfter history) here)) w)

theorem recovered_iff {history : List PresenceExpiry.Event} {u : JsString} :
    Recovered history u ↔ Withdrawn history u := by
  rw [← offline_iff]
  constructor
  · rintro ⟨hoffline, -, -⟩ hmem
    rw [PresenceExpiry.reply_isOnline.mpr hmem] at hoffline
    cases hoffline
  · intro hmem
    have hreply : reply history (.isOnline u) = some (.ok (.flag false)) := by
      rw [reply, (PresenceExpiry.step_request _ _).1, RedisPresence.step_isOnline]
      simp [hmem]
    refine ⟨hreply, fun x ids hids => ?_, fun repo here args w hreceiver => ?_⟩
    · rw [reply, (PresenceExpiry.step_request _ _).1, RedisPresence.step_getOnlineUserIds] at hids
      obtain rfl : _ = ids := by simpa using hids
      simp [hmem]
    · have hoffline : (answering (serverAfter history) here).isOnline args.receiverId = false := by
        rw [hreceiver]
        exact decide_eq_false fun h => by cases hreply.symm.trans h
      rw [handleMessageReceived_trace, effects_map, receivedEffects, hoffline]
      refine ⟨published (answering (serverAfter history) here) args, List.mem_cons_of_mem _ ?_⟩
      rw [if_neg Bool.false_ne_true]
      exact List.mem_append_right _ (List.mem_singleton.mpr rfl)

section Runs

variable {Node : Type}

/-- At any time, an hour after the last connect of a user whose sockets have all died or been
disconnected, the user has recovered. -/
def Recovers (run : List (Event Node)) : Prop :=
  ∀ history, history <+: run → ∀ u, Bereft history u → ttl ≤ idle u (seen history) →
    Recovered (seen history) u

/-- Users recover in exactly those runs in which, whenever their sockets are gone for an hour,
they have withdrawn by a disconnect. -/
theorem recovers_iff (run : List (Event Node)) : Recovers run ↔
    ∀ history, history <+: run → ∀ u, Bereft history u → ttl ≤ idle u (seen history) →
      Withdrawn (seen history) u := by
  simp only [Recovers, recovered_iff]

end Runs

/-- The only socket of `alice` dies in a crash, and an hour passes. -/
def crashed : List (Event ℕ) :=
  [.request 0 (.call (.connect (js "alice") (js "s1"))), .crash 0, .pass 3600000]

theorem crashed_online :
    Silent crashed ∧ Bereft crashed (js "alice") ∧ ttl ≤ idle (js "alice") (seen crashed) ∧
      reply (seen crashed) (.isOnline (js "alice")) = some (.ok (.flag true)) ∧
      ¬ ∀ run : List (Event ℕ), Silent run → Recovers run := by
  have hsilent : Silent crashed := by
    intro before node u s rest hsplit
    have hmem : .request node (.call (.disconnect u s)) ∈ crashed := by simp [hsplit]
    simp [crashed] at hmem
  have hbereft : Bereft crashed (js "alice") := by
    rintro node s ⟨before, rest, hsplit, -, hcrash⟩
    cases before with
    | nil =>
      obtain ⟨hfirst, rfl⟩ := List.cons.inj hsplit
      cases hfirst
      simp at hcrash
    | cons first before =>
      obtain ⟨-, hrest⟩ := List.cons.inj hsplit
      have hmem : Event.request node (.call (.connect (js "alice") s)) ∈
          [Event.crash 0, .pass 3600000] := by simp [hrest]
      simp at hmem
  have hidle : ttl ≤ idle (js "alice") (seen crashed) := by decide
  have honline : reply (seen crashed) (.isOnline (js "alice")) = some (.ok (.flag true)) := by
    decide
  refine ⟨hsilent, hbereft, hidle, honline, fun h => ?_⟩
  have hoffline := (h crashed hsilent crashed List.prefix_rfl _ hbereft hidle).offline
  cases honline.symm.trans hoffline

end ChatMicroservices.PresenceRecovery

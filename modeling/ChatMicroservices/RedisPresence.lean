import ChatMicroservices.LocalPresenceStore

/-!
# The two presence stores side by side

`RedisPresenceStore` on a server that nobody else uses, without failures and without expiry.
The sets of the server represent the same pairs as the map of `LocalPresenceStore`. The
answers differ where one store looks before the change and the other after it.
-/

namespace ChatMicroservices.RedisPresence
open JavaScriptValues EffectPrograms RegisteredSets Transcripts PresenceStore
open LocalPresenceStore (Store socketsOf connect_eq disconnect_eq)

/-- Commands without failures and without expiry. -/
def exec : (op : Op) → Sets → Ans op × Sets
  | .sadd key member, sets =>
    (.ok (if member ∈ sets key then 0 else 1),
      Function.update sets key (insert member (sets key)))
  | .srem key member, sets =>
    (.ok (if member ∈ sets key then 1 else 0),
      Function.update sets key ((sets key).erase member))
  | .scard key, sets => (.ok (sets key).card, sets)
  | .sismember key member, sets => (.ok (if member ∈ sets key then 1 else 0), sets)
  | .smembers key, sets => (.ok (sets key), sets)
  | .expire key _, sets => (.ok (if sets key = ∅ then 0 else 1), sets)
  | .begin, sets | .finish _, sets => ((), sets)

/-- A request is handled to its end. -/
def step (sets : Sets) (request : Request) :
    Except JsError (Reply (Finset JsString)) × Sets := request.program.run exec sets

/-- What a connect leaves: its socket, and its user online if that is the only one. -/
def connected (sets : Sets) (u s : JsString) : Sets :=
  let sockets := insert s (sets (keySockets u))
  let sets := Function.update sets (keySockets u) sockets
  if sockets.card = 1 then Function.update sets keyOnline (insert u (sets keyOnline)) else sets

def disconnected (sets : Sets) (u s : JsString) : Sets :=
  let sockets := (sets (keySockets u)).erase s
  let sets := Function.update sets (keySockets u) sockets
  if sockets.card = 0 then Function.update sets keyOnline ((sets keyOnline).erase u) else sets

theorem step_connect (sets : Sets) (u s : JsString) :
    step sets (.call (.connect u s)) =
      (.ok (.flag (decide ((insert s (sets (keySockets u))).card = 1))), connected sets u s) := by
  by_cases h : (insert s (sets (keySockets u))).card = 1
  · simp [step, Request.program, Call.body, connect, perform, Program.call, Program.attempt, exec,
      connected, h]
  · simp [step, Request.program, Call.body, connect, perform, Program.call, Program.attempt, exec,
      connected, h]

theorem step_disconnect (sets : Sets) (u s : JsString) :
    step sets (.call (.disconnect u s)) =
      (.ok (.flag (decide (((sets (keySockets u)).erase s).card = 0))),
        disconnected sets u s) := by
  by_cases h : ((sets (keySockets u)).erase s).card = 0
  · simp [step, Request.program, Call.body, disconnect, perform, Program.call, Program.attempt,
      exec, disconnected, h]
  · simp [step, Request.program, Call.body, disconnect, perform, Program.call, Program.attempt,
      exec, disconnected, h]

theorem step_isOnline (sets : Sets) (u : JsString) :
    step sets (.isOnline u) = (.ok (.flag (decide (u ∈ sets keyOnline))), sets) := by
  by_cases h : u ∈ sets keyOnline <;>
    simp [step, Request.program, isOnline, perform, Program.call, Program.attempt, exec, h]

theorem step_getOnlineUserIds (sets : Sets) (x : JsString) :
    step sets (.getOnlineUserIds x) =
      (.ok (.userIds ((sets keyOnline).filter fun id => id ≠ x)), sets) := by
  simp [step, Request.program, getOnlineUserIds, perform, Program.call, Program.attempt, exec]

structure Represents (sets : Sets) (pairs : Finset (JsString × JsString)) : Prop where
  mem : ∀ u s, s ∈ sets (keySockets u) ↔ (u, s) ∈ pairs
  online : ∀ u, u ∈ sets keyOnline ↔ sets (keySockets u) ≠ ∅

def noSets : Sets := fun _ => ∅

theorem represents_noSets : Represents noSets ∅ where
  mem := by simp [noSets]
  online := by simp [noSets]

section Sets

variable {sets : Sets} {pairs : Finset (JsString × JsString)}

@[simp] theorem connected_keySockets (sets : Sets) (u s v : JsString) :
    connected sets u s (keySockets v) =
      if v = u then insert s (sets (keySockets u)) else sets (keySockets v) := by
  by_cases hv : v = u <;> by_cases hcard : (insert s (sets (keySockets u))).card = 1 <;>
    simp [connected, hcard, hv]

@[simp] theorem disconnected_keySockets (sets : Sets) (u s v : JsString) :
    disconnected sets u s (keySockets v) =
      if v = u then (sets (keySockets u)).erase s else sets (keySockets v) := by
  by_cases hv : v = u <;> by_cases hcard : (sets (keySockets u)).erase s = ∅ <;>
    simp [disconnected, hcard, hv]

theorem mem_connected_keyOnline {u s v : JsString} : v ∈ connected sets u s keyOnline ↔
    (v = u ∧ (insert s (sets (keySockets u))).card = 1) ∨ v ∈ sets keyOnline := by
  by_cases hcard : (insert s (sets (keySockets u))).card = 1 <;>
    simp [connected, hcard]

theorem mem_disconnected_keyOnline {u s v : JsString} : v ∈ disconnected sets u s keyOnline ↔
    ¬ (v = u ∧ (sets (keySockets u)).erase s = ∅) ∧ v ∈ sets keyOnline := by
  by_cases hempty : (sets (keySockets u)).erase s = ∅ <;>
    simp [disconnected, hempty]

theorem Represents.connected (h : Represents sets pairs) (u s : JsString) :
    Represents (RedisPresence.connected sets u s) (insert (u, s) pairs) := by
  refine ⟨fun v t => ?_, fun v => ?_⟩
  · rw [connected_keySockets, Finset.mem_insert, Prod.mk.injEq, ← h.mem]
    split
    · rename_i hv
      simp [hv]
    · rename_i hv
      simp [hv]
  · rw [mem_connected_keyOnline, connected_keySockets, h.online]
    split
    · rename_i hv
      subst hv
      simp only [true_and, ne_eq, Finset.insert_ne_empty, not_false_eq_true, iff_true]
      by_cases hempty : sets (keySockets v) = ∅
      · exact .inl (by simp [hempty])
      · exact .inr hempty
    · rename_i hv
      simp [hv]

theorem Represents.disconnected (h : Represents sets pairs) (u s : JsString) :
    Represents (RedisPresence.disconnected sets u s) (pairs.erase (u, s)) := by
  refine ⟨fun v t => ?_, fun v => ?_⟩
  · rw [disconnected_keySockets, Finset.mem_erase, ne_eq, Prod.mk.injEq, ← h.mem]
    split
    · rename_i hv
      simp [hv]
    · rename_i hv
      simp [hv]
  · rw [mem_disconnected_keyOnline, disconnected_keySockets, h.online]
    split
    · rename_i hv
      subst hv
      simp only [true_and]
      refine ⟨fun hne => hne.1, fun hne => ⟨hne, fun hempty => hne ?_⟩⟩
      rw [hempty, Finset.erase_empty]
    · rename_i hv
      simp [hv]

theorem Represents.step (h : Represents sets pairs) (r : Request) :
    Represents (RedisPresence.step sets r).2
      (r.change.elim pairs fun change => change.apply pairs) := by
  cases r with
  | call c =>
    cases c with
    | connect u s =>
      rw [step_connect]
      exact h.connected u s
    | disconnect u s =>
      rw [step_disconnect]
      exact h.disconnected u s
  | isOnline u =>
    rw [step_isOnline]
    exact h
  | getOnlineUserIds x =>
    rw [step_getOnlineUserIds]
    exact h

end Sets

/-- The single-node store, asked the same way; the order of user ids does not count. -/
def localStep (store : Store) (request : Request) :
    Except JsError (Reply (Finset JsString)) × Store :=
  let (reply, store) := LocalPresenceStore.handle store request
  (.ok (reply.map List.toFinset), store)

/-- The connections and disconnections of a history. -/
def changes (history : List Request) : List (Change (JsString × JsString)) :=
  history.filterMap Request.change

theorem registered_changes_concat (history : List Request) (r : Request) :
    registered (changes (history ++ [r])) = r.change.elim (registered (changes history))
      fun change => change.apply (registered (changes history)) := by
  rw [changes, changes, List.filterMap_append]
  cases hchange : r.change with
  | none => simp [hchange]
  | some change => simp [hchange]

/-- After every history both stores represent the pairs that are connected after it. -/
theorem after_represents (history : List Request) :
    Represents (after step noSets history) (registered (changes history)) ∧
      LocalPresenceStore.Represents (after localStep InsertionMaps.InsertionMap.empty history)
        (registered (changes history)) := by
  constructor
  · refine after_history (R := fun history sets =>
      Represents sets (registered (changes history))) represents_noSets (fun _ _ r h => ?_) history
    rw [registered_changes_concat]
    exact h.step r
  · refine after_history (R := fun history store =>
      LocalPresenceStore.Represents store (registered (changes history)))
      LocalPresenceStore.represents_empty (fun _ _ r h => ?_) history
    rw [registered_changes_concat]
    exact h.handle r

/-- The request is one that both stores answer alike: a connect is not of the only connected
socket of the user, and a disconnect is of a user with a connected socket. -/
def Expected (history : List (Change (JsString × JsString))) : Request → Prop
  | .call (.connect userId socketId) =>
    ¬ ∀ other, Connected history userId other ↔ other = socketId
  | .call (.disconnect userId _) => Online history userId
  | .isOnline _ | .getOnlineUserIds _ => True

theorem card_insert_eq_one {sockets : Finset JsString} {s : JsString} :
    (insert s sockets).card = 1 ↔ sockets = ∅ ∨ sockets = {s} := by
  rw [← Finset.subset_singleton_iff]
  constructor
  · intro h
    obtain ⟨t, ht⟩ := Finset.card_eq_one.mp h
    have hs : s = t := Finset.mem_singleton.mp (ht ▸ Finset.mem_insert_self s sockets)
    exact hs ▸ ht ▸ Finset.subset_insert s sockets
  · intro h
    rw [Finset.card_eq_one]
    exact ⟨s, Finset.Subset.antisymm (Finset.insert_subset (by simp) h) (by simp)⟩

theorem answer_eq_iff {history : List Request} {sets : Sets} {store : Store}
    (hsets : Represents sets (registered (changes history)))
    (hstore : LocalPresenceStore.Represents store (registered (changes history)))
    (r : Request) : (step sets r).1 = (localStep store r).1 ↔ Expected (changes history) r := by
  have hsockets : ∀ u, sets (keySockets u) = socketsOf store u := fun u =>
    Finset.ext fun s => (hsets.mem u s).trans hstore.mem_socketsOf.symm
  have hconnected : ∀ u s, s ∈ socketsOf store u ↔ Connected (changes history) u s := fun u s =>
    hstore.mem_socketsOf.trans mem_registered
  cases r with
  | call c =>
    cases c with
    | connect u s =>
      have hsingleton : (∀ t, Connected (changes history) u t ↔ t = s) ↔
          socketsOf store u = {s} := by
        simp only [Finset.ext_iff, hconnected, Finset.mem_singleton]
      rw [Expected, hsingleton, step_connect, hsockets]
      simp only [localStep, LocalPresenceStore.handle, (connect_eq store u s).1, Reply.map,
        Except.ok.injEq, Reply.flag.injEq, decide_eq_decide, card_insert_eq_one]
      by_cases hempty : socketsOf store u = ∅
      · simp [hempty, Finset.singleton_ne_empty s |>.symm]
      · simp [hempty]
    | disconnect u s =>
      have honline : Online (changes history) u ↔ socketsOf store u ≠ ∅ := by
        rw [← Finset.nonempty_iff_ne_empty]
        exact exists_congr fun s => (hconnected u s).symm
      rw [Expected, honline, step_disconnect, hsockets]
      simp only [localStep, LocalPresenceStore.handle, (disconnect_eq hstore u s).1, Reply.map,
        Except.ok.injEq, Reply.flag.injEq, decide_eq_decide, Finset.card_eq_zero]
      by_cases hempty : socketsOf store u = ∅
      · simp [hempty]
      · simp [hempty]
  | isOnline u =>
    have honline : u ∈ sets keyOnline ↔ LocalPresenceStore.isOnline store u = true := by
      rw [hsets.online, hsockets, ne_eq, hstore.socketsOf_eq_empty, not_not, hstore.isOnline]
    rw [step_isOnline]
    simp [localStep, LocalPresenceStore.handle, Reply.map, Expected, honline]
  | getOnlineUserIds x =>
    have hids : ((sets keyOnline).filter fun id => id ≠ x) =
        (LocalPresenceStore.getOnlineUserIds store x).toFinset := by
      refine Finset.ext fun u => ?_
      rw [Finset.mem_filter, hsets.online, hsockets, ne_eq, hstore.socketsOf_eq_empty, not_not,
        List.mem_toFinset, hstore.mem_getOnlineUserIds, and_comm]
    rw [step_getOnlineUserIds, hids]
    simp [localStep, LocalPresenceStore.handle, Reply.map, Expected]

/-- The two stores, started empty, give the same answers if and only if no connect repeats the
only connected socket of its user, and no disconnect is of a user without one. -/
theorem stores_interchangeable_iff (requests : List Request) :
    answers step noSets requests = answers localStep InsertionMaps.InsertionMap.empty requests ↔
      ∀ before request rest, requests = before ++ request :: rest →
        Expected (changes before) request := by
  rw [answers_eq_iff]
  have hlocal : ∀ before request, (step (after step noSets before) request).1 =
      (localStep (after localStep InsertionMaps.InsertionMap.empty before) request).1 ↔
        Expected (changes before) request := fun before request =>
    answer_eq_iff (after_represents before).1 (after_represents before).2 request
  constructor
  · intro h before request rest hsplit
    exact (hlocal before request).mp (h before request rest hsplit)
  · intro h before request rest hsplit
    exact (hlocal before request).mpr (h before request rest hsplit)

/-- `alice` connects the same socket twice, and disconnects it twice. -/
def repeated : List Request :=
  [.call (.connect (js "alice") (js "s1")), .call (.connect (js "alice") (js "s1")),
    .call (.disconnect (js "alice") (js "s1")), .call (.disconnect (js "alice") (js "s1"))]

/-- One store answers every call with `true`, the other only the first of each kind. -/
theorem repeated_answers :
    answers step noSets repeated =
        [.ok (.flag true), .ok (.flag true), .ok (.flag true), .ok (.flag true)] ∧
      answers localStep InsertionMaps.InsertionMap.empty repeated =
        [.ok (.flag true), .ok (.flag false), .ok (.flag true), .ok (.flag false)] ∧
      ¬ ∀ requests, answers step noSets requests =
        answers localStep InsertionMaps.InsertionMap.empty requests :=
  ⟨by decide, by decide, fun h => absurd (h repeated) (by decide)⟩

end ChatMicroservices.RedisPresence

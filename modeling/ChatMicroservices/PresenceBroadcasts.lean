import ChatMicroservices.LocalPresenceStore
import ChatMicroservices.MicrotaskQueues
import ChatMicroservices.OrderedReports
import ChatMicroservices.SocketHandlers

/-!
# Presence broadcasts of a single node

The connection handler of the Socket.IO server, and the handlers that tell the clients who is
online. The presence store answers with promises that are already settled, so what a handler
does after its `await` waits in the queue of microtasks, and sockets may come and go before.
-/

namespace ChatMicroservices.PresenceBroadcasts
open JavaScriptValues EffectPrograms InsertionMaps RegisteredSets
open MicrotaskQueues OrderedReports MessagesTable ChatEffects LocalPresenceStore

inductive Delivery where
  | event (event : ServerEvent)
  | presenceBulk (onlineUserIds : List JsString)
  deriving DecidableEq

/-- A connected socket: `socket.data.user?.id`, the rooms it joined, and what its client has
been sent. -/
structure Client where
  userId : Option JsString
  rooms : List JsString
  received : List Delivery
  deriving DecidableEq

def Client.deliver (delivery : Delivery) (client : Client) : Client :=
  { client with received := client.received ++ [delivery] }

def Client.deliverAll (deliveries : List Delivery) (client : Client) : Client :=
  { client with received := client.received ++ deliveries }

def Client.join (room : JsString) (client : Client) : Client :=
  { client with rooms := client.rooms ++ [room] }

/-- The user of a socket; the handlers treat an empty id as none. -/
def Client.user (client : Client) : Option JsString :=
  client.userId.filter fun userId => userId ≠ []

inductive Op where
  | join (socketId room : JsString)
  | connectPresence (userId socketId : JsString)
  | getOnlineUserIds (excludeUserId : JsString)
  | emitBulk (socketId : JsString) (onlineUserIds : List JsString)
  | chat (op : ChatEffects.Op)
  deriving DecidableEq

@[reducible] def Ans : Op → Type
  | .join _ _ | .emitBulk _ _ => Unit
  | .connectPresence _ _ => Bool
  | .getOnlineUserIds _ => List JsString
  | .chat op => ChatEffects.Ans op

abbrev Handler (α : Type) := Program Ans JsError α

def perform (op : Op) : Handler (Ans op) := Program.call op

/-- A handler of the chat service among the others. -/
def chat {α : Type} : ChatEffects.Handler α → Handler α := embed .chat fun _ answer => answer

/-- The calls of the presence store that the handlers wait for. -/
def waits : Op → Bool
  | .connectPresence _ _ | .getOnlineUserIds _ | .chat (.disconnectPresence _ _) => true
  | _ => false

def registerPresence (socketId userId : JsString) : Handler Unit := do
  perform (.join socketId userId)
  let isFirst ← perform (.connectPresence userId socketId)
  if isFirst then
    perform (.chat (.emitToAll (.presence userId true none)))

def sendInitialPresence (socketId userId : JsString) : Handler Unit := do
  let onlineUserIds ← perform (.getOnlineUserIds userId)
  if onlineUserIds.length > 0 then
    perform (.emitBulk socketId onlineUserIds)

/-- `promise.catch(err => logError(…))` -/
def logged (p : Handler Unit) : Handler Unit := p.tryCatch fun _ => pure ()

/-- The asynchronous functions that are called when a socket connects. -/
def registerSocketHandlers (socketId : JsString) (userId : Option JsString) :
    List (Handler Unit) :=
  match userId with
  | none | some [] => []
  | some userId =>
    [logged (registerPresence socketId userId), logged (sendInitialPresence socketId userId)]

/-- The listener for `disconnect`. -/
def handleDisconnect (socketId : JsString) (userId : Option JsString) : Handler Unit :=
  match userId with
  | none | some [] => pure ()
  | some userId => chat (SocketHandlers.handleDisconnect userId socketId)

structure Node (τ : Type) where
  presenceStore : Store
  sockets : InsertionMap JsString Client
  socketConnectionsActive : ℤ
  world : World τ

namespace Node

variable {τ : Type}

/-- `io.emit`. The sockets that are connected receive the event. -/
def emitToAll (n : Node τ) (event : ServerEvent) : Node τ :=
  { n with sockets := n.sockets.mapValues fun _ client => client.deliver (.event event) }

/-- `socket.emit`. A socket that has gone receives nothing. -/
def emitTo (n : Node τ) (socketId : JsString) (delivery : Delivery) : Node τ :=
  { n with
    sockets := n.sockets.mapValues fun id client =>
      if id = socketId then client.deliver delivery else client }

/-- `socket.join` -/
def join (n : Node τ) (socketId room : JsString) : Node τ :=
  { n with
    sockets := n.sockets.mapValues fun id client =>
      if id = socketId then client.join room else client }

end Node

section Execution

variable {τ : Type} (repo : Repository τ) (here : Surroundings)

/-- Presence and broadcasts are answered by the node; the rest is as in one handler. -/
def exec : (op : Op) → Node τ → Ans op × Node τ
  | .join socketId room, n => ((), n.join socketId room)
  | .connectPresence userId socketId, n =>
    let (isFirst, store) := connect n.presenceStore userId socketId
    (isFirst, { n with presenceStore := store })
  | .getOnlineUserIds excludeUserId, n =>
    (LocalPresenceStore.getOnlineUserIds n.presenceStore excludeUserId, n)
  | .emitBulk socketId onlineUserIds, n => ((), n.emitTo socketId (.presenceBulk onlineUserIds))
  | .chat (.disconnectPresence userId socketId), n =>
    let (isLast, store) := disconnect n.presenceStore userId socketId
    (isLast, { n with presenceStore := store })
  | .chat (.emitToAll event), n => ((), n.emitToAll event)
  | .chat op, n =>
    let (answer, world) := ChatEffects.exec repo here op n.world
    (answer, { n with world := world })

end Execution

abbrev Loop (τ : Type) : Type := EventLoop Ans JsError (Node τ)

/-- What happens to the node: sockets come and go, the store is compacted, and the event loop
serves its microtasks. -/
inductive Event where
  | connection (socketId : JsString) (userId : Option JsString)
  | disconnect (socketId : JsString)
  | compact
  | microtask
  deriving DecidableEq

section Steps

variable {τ : Type} (repo : Repository τ) (here : Surroundings)

/-- The listener for `connection`; Socket.IO has added the socket before. -/
def connection (loop : Loop τ) (socketId : JsString) (userId : Option JsString) : Loop τ :=
  let node := { loop.world with
    sockets := loop.world.sockets.set socketId ⟨userId, [], []⟩
    socketConnectionsActive := loop.world.socketConnectionsActive + 1 }
  (registerSocketHandlers socketId userId).foldl (EventLoop.start waits (exec repo here))
    ⟨node, loop.microtasks⟩

/-- The listeners for `disconnect`; Socket.IO has removed the socket before. -/
def disconnection (loop : Loop τ) (socketId : JsString) (client : Client) : Loop τ :=
  let node := { loop.world with
    sockets := loop.world.sockets.delete socketId
    socketConnectionsActive := loop.world.socketConnectionsActive - 1 }
  EventLoop.start waits (exec repo here) ⟨node, loop.microtasks⟩
    (handleDisconnect socketId client.userId)

/-- The ids of connected sockets differ, and only connected sockets disconnect. -/
def stepLoop (loop : Loop τ) : Event → Loop τ
  | .connection socketId userId =>
    if loop.world.sockets.has socketId then loop else connection repo here loop socketId userId
  | .disconnect socketId =>
    match loop.world.sockets.get socketId with
    | none => loop
    | some client => disconnection repo here loop socketId client
  | .compact =>
    { loop with world := { loop.world with presenceStore := compact loop.world.presenceStore } }
  | .microtask => loop.turn waits (exec repo here)

end Steps

/-- What a handler still has to do after its `await`. -/
inductive Note where
  | registered (userId : JsString) (isFirst : Bool)
  | initial (socketId : JsString) (onlineUserIds : List JsString)
  | departed (userId : JsString) (isLast : Bool)
  deriving DecidableEq

namespace Note

def program : Note → Handler Unit
  | registered userId isFirst =>
    logged (if isFirst then perform (.chat (.emitToAll (.presence userId true none))) else pure ())
  | initial socketId onlineUserIds =>
    logged (if onlineUserIds.length > 0 then perform (.emitBulk socketId onlineUserIds)
      else pure ())
  | departed userId isLast =>
    chat (if isLast then do
      let lastSeen ← ChatEffects.perform .currentTime
      ChatEffects.perform (.emitToAll (.presence userId false (some lastSeen)))
    else pure ())

/-- What the microtask does to the node. -/
def effect {τ : Type} (now : ℕ) (n : Node τ) : Note → Node τ
  | registered userId isFirst => if isFirst then n.emitToAll (.presence userId true none) else n
  | initial socketId onlineUserIds =>
    if onlineUserIds.length > 0 then n.emitTo socketId (.presenceBulk onlineUserIds) else n
  | departed userId isLast =>
    if isLast then n.emitToAll (.presence userId false (some now)) else n

/-- What the microtask sends to a socket. -/
def deliveries (now : ℕ) (socketId : JsString) : Note → List Delivery
  | registered userId isFirst => if isFirst then [.event (.presence userId true none)] else []
  | initial id onlineUserIds =>
    if id = socketId ∧ onlineUserIds.length > 0 then [.presenceBulk onlineUserIds] else []
  | departed userId isLast =>
    if isLast then [.event (.presence userId false (some now))] else []

theorem effect_eq {τ : Type} (now : ℕ) (n : Node τ) (note : Note) :
    note.effect now n = { n with
      sockets := n.sockets.mapValues fun socketId =>
        Client.deliverAll (note.deliveries now socketId) } := by
  have hnothing : { n with
      sockets := n.sockets.mapValues fun _ => Client.deliverAll [] } = n := by
    rw [InsertionMap.mapValues_eq_self fun _ client => by rw [Client.deliverAll, List.append_nil]]
  cases note with
  | registered userId isFirst =>
    cases isFirst
    · exact hnothing.symm
    · rfl
  | initial socketId onlineUserIds =>
    by_cases hids : onlineUserIds.length > 0
    · have hclient : (fun id => Client.deliverAll
            (deliveries now id (initial socketId onlineUserIds))) =
          fun id client => if id = socketId then client.deliver (.presenceBulk onlineUserIds)
            else client := by
        funext id client
        by_cases hid : id = socketId
        · simp [deliveries, hid, hids, Client.deliver, Client.deliverAll]
        · simp [deliveries, hid, Ne.symm hid, Client.deliverAll]
      rw [effect, if_pos hids, Node.emitTo, hclient]
    · simp only [effect, deliveries, hids, and_false, if_false]
      exact hnothing.symm
  | departed userId isLast =>
    cases isLast
    · exact hnothing.symm
    · rfl

theorem program_waits_not (note : Note) : note.program.Issues fun op => waits op = false := by
  cases note with
  | registered userId isFirst =>
    cases isFirst <;> simp [program, logged, perform, Program.call, waits]
  | initial socketId onlineUserIds =>
    rw [program]
    split <;> simp [logged, perform, Program.call, waits]
  | departed userId isLast =>
    cases isLast <;> simp [program, chat, embed, ChatEffects.perform, Program.call, waits]

end Note

section Spec

variable {τ : Type} {repo : Repository τ} {here : Surroundings}

theorem run_program (note : Note) (n : Node τ) :
    (note.program.run (exec repo here) n).2 = note.effect here.now n := by
  cases note with
  | registered userId isFirst => cases isFirst <;> rfl
  | initial socketId onlineUserIds =>
    rw [Note.program, Note.effect]
    split <;> rfl
  | departed userId isLast => cases isLast <;> rfl

theorem turn_note (n : Node τ) (note : Note) (tasks : List (Handler Unit)) :
    EventLoop.turn waits (exec repo here) ⟨n, note.program :: tasks⟩ =
      ⟨note.effect here.now n, tasks⟩ := by
  rw [EventLoop.turn_cons, EventLoop.start_of_issues _ _ note.program_waits_not, run_program]

theorem start_registerPresence (loop : Loop τ) (socketId userId : JsString) :
    loop.start waits (exec repo here) (logged (registerPresence socketId userId)) =
      ⟨{ loop.world.join socketId userId with
          presenceStore := (connect loop.world.presenceStore userId socketId).2 },
        loop.microtasks ++
          [(Note.registered userId
            (connect loop.world.presenceStore userId socketId).1).program]⟩ :=
  rfl

theorem start_sendInitialPresence (loop : Loop τ) (socketId userId : JsString) :
    loop.start waits (exec repo here) (logged (sendInitialPresence socketId userId)) =
      ⟨loop.world, loop.microtasks ++ [(Note.initial socketId
        (LocalPresenceStore.getOnlineUserIds loop.world.presenceStore userId)).program]⟩ := rfl

variable (repo here) in
/-- The typing timer of the user is cleared before the presence store is asked. -/
theorem start_handleDisconnect (loop : Loop τ) (socketId userId : JsString) :
    ∃ world : World τ, loop.start waits (exec repo here)
        (chat (SocketHandlers.handleDisconnect userId socketId)) =
      ⟨{ loop.world with
          presenceStore := (disconnect loop.world.presenceStore userId socketId).2
          world := world },
        loop.microtasks ++
          [(Note.departed userId
            (disconnect loop.world.presenceStore userId socketId).1).program]⟩ := by
  by_cases hhas : loop.world.world.typing.has userId = true
  · refine ⟨{ loop.world.world with typing := loop.world.world.typing.clear userId }, ?_⟩
    simp [EventLoop.start, chat, SocketHandlers.handleDisconnect,
      SocketHandlers.clearTypingTimeout, embed, runSegment, waits, exec, ChatEffects.exec,
      ChatEffects.perform, Program.call, hhas]
    rfl
  · refine ⟨loop.world.world, ?_⟩
    simp [EventLoop.start, chat, SocketHandlers.handleDisconnect,
      SocketHandlers.clearTypingTimeout, embed, runSegment, waits, exec, ChatEffects.exec,
      ChatEffects.perform, Program.call, hhas]
    rfl

end Spec

/-- What a delivery says about who is online. -/
def Delivery.report : Delivery → Report JsString Bool
  | .event (.presence userId online _), v => if v = userId then some online else none
  | .event _, _ => none
  | .presenceBulk onlineUserIds, v => if onlineUserIds.contains v then some true else none

/-- What a microtask is going to tell a socket. -/
def Note.report (socketId : JsString) : Note → Report JsString Bool
  | registered userId isFirst, v => if isFirst ∧ v = userId then some true else none
  | initial id onlineUserIds, v =>
    if id = socketId ∧ onlineUserIds.contains v then some true else none
  | departed userId isLast, v => if isLast ∧ v = userId then some false else none

theorem Note.latest_deliveries (note : Note) (now : ℕ) (socketId : JsString) :
    latest ((note.deliveries now socketId).map Delivery.report) = note.report socketId := by
  funext v
  cases note with
  | registered userId isFirst =>
    cases isFirst <;> simp [deliveries, report, latest, Delivery.report]
  | initial id onlineUserIds =>
    by_cases hid : id = socketId
    · cases onlineUserIds <;> simp [deliveries, report, latest, Delivery.report, hid]
    · simp [deliveries, report, hid]
  | departed userId isLast => cases isLast <;> simp [deliveries, report, latest, Delivery.report]

/-- Whom the client of a socket takes to be online: users are offline until it hears of them. -/
def Client.sees (client : Client) (userId : JsString) : Bool :=
  believed false (client.received.map Delivery.report) userId

namespace Node

variable {τ : Type}

/-- The presence store knows the connected sockets with a user, and no others. -/
structure Registers (n : Node τ) : Prop where
  pairs : ∃ pairs, Represents n.presenceStore pairs ∧ ∀ u s, (u, s) ∈ pairs ↔
    ∃ client, n.sockets.get s = some client ∧ client.user = some u

def online (n : Node τ) (userId : JsString) : Bool := isOnline n.presenceStore userId

theorem Registers.online_iff {n : Node τ} (h : n.Registers) {u : JsString} :
    n.online u = true ↔ ∃ s client, n.sockets.get s = some client ∧ client.user = some u := by
  obtain ⟨pairs, hpairs, hmem⟩ := h
  rw [online, hpairs.isOnline]
  exact exists_congr fun s => hmem u s

theorem Registers.mem_getOnlineUserIds {n : Node τ} (h : n.Registers) {u v : JsString} :
    v ∈ LocalPresenceStore.getOnlineUserIds n.presenceStore u ↔ v ≠ u ∧ n.online v = true := by
  obtain ⟨pairs, hpairs, -⟩ := h
  rw [hpairs.mem_getOnlineUserIds, online, hpairs.isOnline]

end Node

/-- The client of a socket will know who else is online, once the notes have been served. -/
def Informed (truth : JsString → Bool) (notes : List Note) (socketId : JsString)
    (client : Client) : Prop :=
  ∀ u, client.user = some u → ∀ v ≠ u,
    believed false (client.received.map Delivery.report ++ notes.map (Note.report socketId)) v =
      truth v

/-- The queue holds what the notes stand for, and these are true. -/
structure Exact {τ : Type} (notes : List Note) (loop : Loop τ) : Prop where
  registers : loop.world.Registers
  microtasks : loop.microtasks = notes.map Note.program
  consistent : ∀ s, Consistent loop.world.online (notes.map (Note.report s))
  informed : ∀ s client, loop.world.sockets.get s = some client →
    Informed loop.world.online notes s client
  rooms : ∀ s client, loop.world.sockets.get s = some client → client.rooms = client.user.toList
  active : loop.world.socketConnectionsActive = loop.world.sockets.rows.length

section Notes

variable {truth truth' : JsString → Bool} {notes : List Note} {note : Note}

theorem consistent_concat (h : ∀ s, Consistent truth (notes.map (Note.report s)))
    (hnote : ∀ s, Tells truth truth' (note.report s)) (s : JsString) :
    Consistent truth' ((notes ++ [note]).map (Note.report s)) := by
  rw [List.map_append]
  exact (h s).concat (hnote s)

theorem Informed.concat {s : JsString} {client : Client} (h : Informed truth notes s client)
    (hnote : Tells truth truth' (note.report s)) :
    Informed truth' (notes ++ [note]) s client := by
  intro u huser v hv
  rw [List.map_append, ← List.append_assoc]
  exact believed_concat (h u huser v hv) hnote

/-- A note that has become a delivery. -/
theorem Informed.delivered {s : JsString} {client : Client}
    (h : Informed truth (note :: notes) s client) (now : ℕ) :
    Informed truth notes s (client.deliverAll (note.deliveries now s)) := by
  intro u huser v hv
  have hbelieved := h u huser v hv
  rw [believed, latest_append, List.map_cons, latest_cons, Option.or_assoc] at hbelieved
  rw [believed, latest_append, Client.deliverAll, List.map_append, latest_append,
    note.latest_deliveries]
  exact hbelieved

end Notes

section Store

variable {store : Store} {pairs : Finset (JsString × JsString)}

theorem isOnline_connect (h : Represents store pairs) (u s v : JsString) :
    isOnline (connect store u s).2 v = true ↔ v = u ∨ isOnline store v = true := by
  rw [(h.connect u s).isOnline, h.isOnline]
  simp only [Finset.mem_insert, Prod.mk.injEq, exists_or, exists_and_left, exists_eq, and_true]

theorem connect_first (h : Represents store pairs) (u s : JsString) :
    (connect store u s).1 = !isOnline store u := by
  rw [(connect_eq store u s).1, Bool.eq_iff_iff, decide_eq_true_iff, h.socketsOf_eq_empty,
    ← h.isOnline, Bool.not_eq_true, Bool.not_eq_true']

theorem isOnline_disconnect (h : Represents store pairs) (u s : JsString) {v : JsString}
    (hv : v ≠ u) : isOnline (disconnect store u s).2 v = isOnline store v := by
  rw [Bool.eq_iff_iff, (h.disconnect u s).isOnline, h.isOnline]
  simp [hv]

theorem disconnect_last (h : Represents store pairs) (u s : JsString) :
    (disconnect store u s).1 = (isOnline store u && !isOnline (disconnect store u s).2 u) := by
  have hsockets := socketsOf_disconnect h u s u
  rw [if_pos rfl] at hsockets
  rw [(disconnect_eq h u s).1, Bool.eq_iff_iff, decide_eq_true_iff, ← hsockets, ne_eq,
    h.socketsOf_eq_empty, (h.disconnect u s).socketsOf_eq_empty, ← h.isOnline,
    ← (h.disconnect u s).isOnline]
  simp

/-- The first socket of a user is announced, and another one changes nothing. -/
theorem registered_tells (h : Represents store pairs) (u s t : JsString) :
    Tells (isOnline store) (isOnline (connect store u s).2)
      ((Note.registered u (connect store u s).1).report t) := by
  intro v
  by_cases hv : v = u
  · subst hv
    have honline : isOnline (connect store v s).2 v = true :=
      (isOnline_connect h v s v).mpr (.inl rfl)
    rw [connect_first h, honline]
    cases isOnline store v <;> simp [Note.report]
  · refine .inr ⟨by simp [Note.report, hv], ?_⟩
    rw [Bool.eq_iff_iff, isOnline_connect h]
    simp [hv]

/-- The list of the users who are online is true when it is made. -/
theorem initial_tells (h : Represents store pairs) (u s t : JsString) :
    Tells (isOnline store) (isOnline store)
      ((Note.initial s (LocalPresenceStore.getOnlineUserIds store u)).report t) := by
  intro v
  by_cases hmem : s = t ∧ v ∈ LocalPresenceStore.getOnlineUserIds store u
  · have honline : isOnline store v = true :=
      h.isOnline v |>.mpr (h.mem_getOnlineUserIds.mp hmem.2).2
    exact .inl (by simp only [Note.report, List.contains_iff_mem, if_pos hmem, honline])
  · exact .inr ⟨by simp only [Note.report, List.contains_iff_mem, if_neg hmem], rfl⟩

theorem initial_snapshot (h : Represents store pairs) {u v : JsString} (s : JsString)
    (hv : v ≠ u) :
    (Note.initial s (LocalPresenceStore.getOnlineUserIds store u)).report s v =
        some (isOnline store v) ∨
      ((Note.initial s (LocalPresenceStore.getOnlineUserIds store u)).report s v = none ∧
        isOnline store v = false) := by
  have hmem : v ∈ LocalPresenceStore.getOnlineUserIds store u ↔ isOnline store v = true := by
    rw [h.mem_getOnlineUserIds, h.isOnline, and_iff_right hv]
  cases honline : isOnline store v <;> simp [Note.report, hmem, honline]

/-- The last socket of a user is announced, and another one changes nothing. -/
theorem departed_tells (h : Represents store pairs) (u s t : JsString) :
    Tells (isOnline store) (isOnline (disconnect store u s).2)
      ((Note.departed u (disconnect store u s).1).report t) := by
  intro v
  by_cases hv : v = u
  · subst hv
    have hsub : isOnline (disconnect store v s).2 v = true → isOnline store v = true := by
      rw [(h.disconnect v s).isOnline, h.isOnline]
      rintro ⟨t, ht⟩
      exact ⟨t, Finset.mem_of_mem_erase ht⟩
    rw [disconnect_last h]
    cases hnew : isOnline (disconnect store v s).2 v
    · cases isOnline store v <;> simp [Note.report]
    · simp [Note.report, hsub hnew]
  · exact .inr ⟨by simp [Note.report, hv], isOnline_disconnect h u s hv⟩

end Store

section Preservation

variable {τ : Type} {repo : Repository τ} {here : Surroundings} {loop : Loop τ}
  {notes : List Note}

variable (repo here) in
/-- A microtask tells the clients what its note says. -/
theorem Exact.microtask {note : Note} (h : Exact (note :: notes) loop) :
    Exact notes (loop.turn waits (exec repo here)) := by
  obtain ⟨n, tasks⟩ := loop
  obtain rfl : tasks = note.program :: notes.map Note.program := h.microtasks
  rw [turn_note, note.effect_eq]
  have hget : ∀ s client, (n.sockets.mapValues fun socketId =>
        Client.deliverAll (note.deliveries here.now socketId)).get s = some client →
      ∃ old, n.sockets.get s = some old ∧
        client = old.deliverAll (note.deliveries here.now s) := by
    intro s client hclient
    rw [InsertionMap.get_mapValues] at hclient
    obtain ⟨old, hold, rfl⟩ := Option.map_eq_some_iff.mp hclient
    exact ⟨old, hold, rfl⟩
  refine ⟨?_, rfl, fun s => (h.consistent s).tail, ?_, ?_, ?_⟩
  · obtain ⟨pairs, hpairs, hmem⟩ := h.registers
    refine ⟨pairs, hpairs, fun u s => (hmem u s).trans ⟨?_, ?_⟩⟩
    · rintro ⟨client, hclient, huser⟩
      refine ⟨client.deliverAll (note.deliveries here.now s), ?_, huser⟩
      rw [InsertionMap.get_mapValues, hclient, Option.map_some]
    · rintro ⟨client, hclient, huser⟩
      obtain ⟨old, hold, rfl⟩ := hget s client hclient
      exact ⟨old, hold, huser⟩
  · intro s client hclient
    obtain ⟨old, hold, rfl⟩ := hget s client hclient
    exact (h.informed s old hold).delivered here.now
  · intro s client hclient
    obtain ⟨old, hold, rfl⟩ := hget s client hclient
    exact h.rooms s old hold
  · rw [InsertionMap.mapValues, List.length_map]
    exact h.active

theorem Exact.users_microtask {note : Note} (h : Exact (note :: notes) loop) (s : JsString) :
    ((loop.turn waits (exec repo here)).world.sockets.get s).map Client.user =
      (loop.world.sockets.get s).map Client.user := by
  obtain ⟨n, tasks⟩ := loop
  obtain rfl : tasks = note.program :: notes.map Note.program := h.microtasks
  rw [turn_note, note.effect_eq, InsertionMap.get_mapValues, Option.map_map]
  rfl

variable (repo here) in
/-- Once every microtask has had its turn, no client is left to be told anything. -/
theorem Exact.served (h : Exact notes loop) :
    Exact [] ((EventLoop.turn waits (exec repo here))^[notes.length] loop) ∧
      ∀ s, (((EventLoop.turn waits (exec repo here))^[notes.length] loop).world.sockets.get s).map
        Client.user = (loop.world.sockets.get s).map Client.user := by
  induction notes generalizing loop with
  | nil => exact ⟨h, fun _ => rfl⟩
  | cons note notes ih =>
    have hrest := ih (h.microtask repo here)
    rw [List.length_cons, Function.iterate_succ_apply]
    exact ⟨hrest.1, fun s => (hrest.2 s).trans (h.users_microtask s)⟩

theorem Exact.compact (h : Exact notes loop) :
    Exact notes (stepLoop repo here loop .compact) := by
  obtain ⟨pairs, hpairs, -⟩ := id h.registers
  rw [stepLoop, hpairs.compact]
  exact h

/-- A socket without a user receives what is broadcast. -/
theorem Exact.connection_guest (h : Exact notes loop) {socketId : JsString}
    {userId : Option JsString} (hfree : loop.world.sockets.has socketId = false)
    (huser : (Client.mk userId [] []).user = none) :
    Exact notes (connection repo here loop socketId userId) := by
  have hhandlers : registerSocketHandlers socketId userId = [] := by
    rcases userId with _ | _ | ⟨c, cs⟩
    · rfl
    · rfl
    · simp [Client.user] at huser
  have hget : ∀ s, (loop.world.sockets.set socketId ⟨userId, [], []⟩).get s =
      if s = socketId then some ⟨userId, [], []⟩ else loop.world.sockets.get s :=
    fun s => InsertionMap.get_set _ _ _ _
  rw [connection, hhandlers, List.foldl_nil]
  refine ⟨?_, h.microtasks, h.consistent, ?_, ?_, ?_⟩
  · obtain ⟨pairs, hpairs, hmem⟩ := h.registers
    refine ⟨pairs, hpairs, fun u s => (hmem u s).trans ?_⟩
    by_cases hs : s = socketId
    · subst hs
      have hnone : loop.world.sockets.get s = none := by
        simpa [InsertionMap.has] using hfree
      simp [hget, hnone, huser]
    · simp [hget, hs]
  · intro s client hclient
    rw [hget] at hclient
    split at hclient
    · obtain rfl := Option.some.inj hclient
      intro u hu
      rw [huser] at hu
      cases hu
    · exact h.informed s client hclient
  · intro s client hclient
    rw [hget] at hclient
    split at hclient
    · obtain rfl := Option.some.inj hclient
      rw [huser]
      rfl
    · exact h.rooms s client hclient
  · have hrows := InsertionMap.set_rows_of_fresh (v := Client.mk userId [] [])
      (InsertionMap.not_mem_keys hfree)
    simp only [hrows, List.length_append, List.length_singleton, h.active]
    push_cast
    rfl

/-- A socket with a user is announced and told who is online. -/
theorem Exact.connection_user (h : Exact notes loop) {socketId u : JsString}
    (hfree : loop.world.sockets.has socketId = false) (hu : u ≠ []) :
    ∃ notes', Exact notes' (connection repo here loop socketId (some u)) := by
  obtain ⟨pairs, hpairs, hmem⟩ := id h.registers
  have hhandlers : registerSocketHandlers socketId (some u) =
      [logged (registerPresence socketId u), logged (sendInitialPresence socketId u)] := by
    cases u with
    | nil => exact absurd rfl hu
    | cons c cs => rfl
  have huser : (Client.mk (some u) [u] []).user = some u := by simp [Client.user, hu]
  have hnew := hpairs.connect u socketId
  have hregistered := registered_tells hpairs u socketId
  have hinitial := initial_tells hnew u socketId
  have hconsistent := consistent_concat h.consistent hregistered
  rw [connection, hhandlers, List.foldl_cons, start_registerPresence, List.foldl_cons,
    start_sendInitialPresence, List.foldl_nil]
  refine ⟨notes ++ [Note.registered u (connect loop.world.presenceStore u socketId).1] ++
    [Note.initial socketId (LocalPresenceStore.getOnlineUserIds
      (connect loop.world.presenceStore u socketId).2 u)], ?_⟩
  have hget : ∀ s, ((loop.world.sockets.set socketId ⟨some u, [], []⟩).mapValues
      fun id client => if id = socketId then client.join u else client).get s =
        if s = socketId then some ⟨some u, [u], []⟩ else loop.world.sockets.get s := by
    intro s
    rw [InsertionMap.get_mapValues, InsertionMap.get_set]
    by_cases hs : s = socketId
    · simp [hs, Client.join]
    · simp [hs]
  refine ⟨⟨_, hnew, fun v s => ?_⟩, ?_, ?_, ?_, ?_, ?_⟩
  · rw [Finset.mem_insert, Prod.mk.injEq, hmem, Node.join, hget]
    by_cases hs : s = socketId
    · subst hs
      have hnone : loop.world.sockets.get s = none := by simpa [InsertionMap.has] using hfree
      simp [hnone, huser, eq_comm]
    · simp [hs]
  · simp only [List.map_append, List.map_cons, List.map_nil, h.microtasks]
  · exact consistent_concat hconsistent hinitial
  · intro s client hclient
    rw [Node.join, hget] at hclient
    split at hclient
    · rename_i hs
      subst hs
      obtain rfl := Option.some.inj hclient
      intro w hw v hv
      obtain rfl : u = w := Option.some.inj (huser.symm.trans hw)
      rw [List.map_append]
      exact believed_snapshot (hconsistent s) (initial_snapshot hnew s hv)
    · exact ((h.informed s client hclient).concat (hregistered s)).concat (hinitial s)
  · intro s client hclient
    rw [Node.join, hget] at hclient
    split at hclient
    · obtain rfl := Option.some.inj hclient
      rw [huser]
      rfl
    · exact h.rooms s client hclient
  · have hrows := InsertionMap.set_rows_of_fresh (v := Client.mk (some u) [] [])
      (InsertionMap.not_mem_keys hfree)
    simp only [Node.join, InsertionMap.mapValues, hrows, List.length_map, List.length_append,
      List.length_singleton, h.active]
    push_cast
    rfl

/-- Without one socket the others are as they were. -/
theorem get_delete_eq_some {sockets : InsertionMap JsString Client} {socketId s : JsString}
    {client : Client} (h : (sockets.delete socketId).get s = some client) :
    s ≠ socketId ∧ sockets.get s = some client := by
  rw [InsertionMap.get_delete] at h
  split at h
  · cases h
  · rename_i hs
    exact ⟨hs, h⟩

theorem Exact.active_delete (h : Exact notes loop) {socketId : JsString} {client : Client}
    (hclient : loop.world.sockets.get socketId = some client) :
    loop.world.socketConnectionsActive - 1 =
      (loop.world.sockets.delete socketId).rows.length := by
  have hhas : loop.world.sockets.has socketId = true := by rw [InsertionMap.has, hclient]; rfl
  have hlength := InsertionMap.length_rows_delete hhas
  rw [h.active]
  omega

theorem Exact.disconnection_guest (h : Exact notes loop) {socketId : JsString} {client : Client}
    (hclient : loop.world.sockets.get socketId = some client) (huser : client.user = none) :
    Exact notes (disconnection repo here loop socketId client) := by
  have hhandler : handleDisconnect socketId client.userId = .done (.ok ()) := by
    obtain ⟨userId, rooms, received⟩ := client
    rcases userId with _ | _ | ⟨c, cs⟩
    · rfl
    · rfl
    · simp [Client.user] at huser
  have hstart : disconnection repo here loop socketId client =
      ⟨{ loop.world with
          sockets := loop.world.sockets.delete socketId
          socketConnectionsActive := loop.world.socketConnectionsActive - 1 },
        loop.microtasks⟩ := by
    simp [disconnection, hhandler, EventLoop.start, runSegment]
  rw [hstart]
  refine ⟨?_, h.microtasks, h.consistent, ?_, ?_, h.active_delete hclient⟩
  · obtain ⟨pairs, hpairs, hmem⟩ := h.registers
    refine ⟨pairs, hpairs, fun u s => (hmem u s).trans ?_⟩
    by_cases hs : s = socketId
    · subst hs
      simp [hclient, huser]
    · simp [hs]
  · intro s other hother
    exact h.informed s other (get_delete_eq_some hother).2
  · intro s other hother
    exact h.rooms s other (get_delete_eq_some hother).2

/-- A socket that goes takes its pair with it, and the last one of a user is announced. -/
theorem Exact.disconnection_user (h : Exact notes loop) {socketId u : JsString} {client : Client}
    (hclient : loop.world.sockets.get socketId = some client) (huser : client.user = some u) :
    ∃ notes', Exact notes' (disconnection repo here loop socketId client) := by
  obtain ⟨pairs, hpairs, hmem⟩ := id h.registers
  have hhandler : handleDisconnect socketId client.userId =
      chat (SocketHandlers.handleDisconnect u socketId) := by
    obtain ⟨userId, rooms, received⟩ := client
    rcases userId with _ | _ | ⟨c, cs⟩
    · cases huser
    · simp [Client.user] at huser
    · obtain ⟨rfl, -⟩ : c :: cs = u ∧ ¬ u = [] := by simpa [Client.user] using huser
      rfl
  have hold := hpairs.disconnect u socketId
  have htells := departed_tells hpairs u socketId
  obtain ⟨world, hstart⟩ := start_handleDisconnect repo here
    ⟨{ loop.world with
        sockets := loop.world.sockets.delete socketId
        socketConnectionsActive := loop.world.socketConnectionsActive - 1 },
      loop.microtasks⟩ socketId u
  rw [disconnection, hhandler, hstart]
  refine ⟨notes ++ [.departed u (disconnect loop.world.presenceStore u socketId).1],
    ⟨⟨_, hold, fun v s => ?_⟩, ?_, ?_, ?_, ?_, h.active_delete hclient⟩⟩
  · rw [Finset.mem_erase, hmem]
    by_cases hs : s = socketId
    · subst hs
      simp [hclient, huser, eq_comm]
    · simp [hs]
  · simp [h.microtasks]
  · exact consistent_concat h.consistent htells
  · intro s other hother
    exact (h.informed s other (get_delete_eq_some hother).2).concat (htells s)
  · intro s other hother
    exact h.rooms s other (get_delete_eq_some hother).2

theorem Exact.step (h : Exact notes loop) (event : Event) :
    ∃ notes', Exact notes' (stepLoop repo here loop event) := by
  cases event with
  | connection socketId userId =>
    rw [stepLoop]
    split
    · exact ⟨notes, h⟩
    · rename_i hfree
      rw [Bool.not_eq_true] at hfree
      rcases userId with _ | _ | ⟨c, cs⟩
      · exact ⟨notes, h.connection_guest hfree rfl⟩
      · exact ⟨notes, h.connection_guest hfree rfl⟩
      · exact h.connection_user hfree (List.cons_ne_nil c cs)
  | disconnect socketId =>
    rw [stepLoop]
    split
    · exact ⟨notes, h⟩
    · rename_i client hclient
      cases huser : client.user with
      | none => exact ⟨notes, h.disconnection_guest hclient huser⟩
      | some u => exact h.disconnection_user hclient huser
  | compact => exact ⟨notes, h.compact⟩
  | microtask =>
    cases notes with
    | nil =>
      refine ⟨[], ?_⟩
      rw [stepLoop, EventLoop.turn, h.microtasks]
      exact h
    | cons note notes => exact ⟨notes, h.microtask repo here⟩

end Preservation

section Runs

variable {τ : Type} (repo : Repository τ) (world : World τ)

/-- The node before the first connection. -/
def Node.start (world : World τ) : Loop τ :=
  ⟨⟨InsertionMap.empty, InsertionMap.empty, 0, world⟩, []⟩

def loopAfter (run : List (Surroundings × Event)) : Loop τ :=
  run.foldl (fun loop happening => stepLoop repo happening.1 loop happening.2) (Node.start world)

theorem exact_start : Exact [] (Node.start world) where
  registers := ⟨∅, represents_empty, by simp [Node.start]⟩
  microtasks := rfl
  consistent := fun _ => consistent_nil _
  informed := by simp [Node.start]
  rooms := by simp [Node.start]
  active := rfl

theorem exact_loopAfter (run : List (Surroundings × Event)) :
    ∃ notes, Exact notes (loopAfter repo world run) := by
  induction run using List.reverseRecOn with
  | nil => exact ⟨[], exact_start world⟩
  | append_singleton run happening ih =>
    obtain ⟨notes, h⟩ := ih
    rw [loopAfter, List.foldl_append]
    exact h.step happening.2

/-- Whatever sockets come and go, the queue is empty after one turn for each microtask in it.
Then every client sees exactly those other users online who have a connected socket. -/
theorem clients_see_who_is_online (run : List (Surroundings × Event)) (here : Surroundings) :
    let before := loopAfter repo world run
    let loop := (EventLoop.turn waits (exec repo here))^[before.microtasks.length] before
    loop.microtasks = [] ∧
    (∀ s, (loop.world.sockets.get s).map Client.user =
      (before.world.sockets.get s).map Client.user) ∧
    ∀ s client u, loop.world.sockets.get s = some client → client.user = some u → ∀ v ≠ u,
      (client.sees v = true ↔
        ∃ t other, loop.world.sockets.get t = some other ∧ other.user = some v) := by
  intro before loop
  obtain ⟨notes, h⟩ := exact_loopAfter repo world run
  have hlength : before.microtasks.length = notes.length := by
    rw [h.microtasks, List.length_map]
  have hserved := h.served repo here
  rw [← hlength] at hserved
  refine ⟨hserved.1.microtasks, hserved.2, fun s client u hclient huser v hv => ?_⟩
  have hinformed := hserved.1.informed s client hclient u huser v hv
  rw [List.map_nil, List.append_nil] at hinformed
  rw [Client.sees, hinformed]
  exact hserved.1.registers.online_iff

/-- At any moment the store counts a user as online if and only if the room of the user has
a connected socket in it, and the gauge counts the connected sockets. -/
theorem presence_matches_rooms (run : List (Surroundings × Event)) :
    let node := (loopAfter repo world run).world
    (∀ u, isOnline node.presenceStore u = true ↔
      ∃ s client, node.sockets.get s = some client ∧ u ∈ client.rooms) ∧
    node.socketConnectionsActive = node.sockets.rows.length := by
  intro node
  obtain ⟨notes, h⟩ := exact_loopAfter repo world run
  refine ⟨fun u => (h.registers.online_iff (u := u)).trans ?_, h.active⟩
  refine exists_congr fun s => exists_congr fun client => and_congr_right fun hclient => ?_
  rw [h.rooms s client hclient, Option.mem_toList]

end Runs

end ChatMicroservices.PresenceBroadcasts

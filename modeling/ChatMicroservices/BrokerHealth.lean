import ChatMicroservices.BrokerReconnection

/-!
# The health of the broker client

`isHealthy` asks whether the fields `connection` and `channel` have ever been assigned, and
nothing clears them. Here the connections and channels have identities, so that a field can hold
one that is closed, and a channel of another connection. `connect` can be called at any time, and
its calls and the reconnecting timeouts overlap.
-/

namespace ChatMicroservices.BrokerHealth
open JavaScriptValues EffectPrograms BrokerReconnection

/-- The connections and the channels that are open, each channel with its connection. -/
structure Links where
  connections : List ℕ
  channels : List (ℕ × ℕ)
  next : ℕ
  connections_lt : ∀ connection ∈ connections, connection < next
  channels_lt : ∀ link ∈ channels, link.1 < next ∧ link.2 < next

namespace Links

def empty : Links := ⟨[], [], 0, fun _ h => absurd h List.not_mem_nil,
  fun _ h => absurd h List.not_mem_nil⟩

/-- The channel and the connection are open, and belong together. -/
def Serves (l : Links) (channel connection : ℕ) : Prop :=
  connection ∈ l.connections ∧ (channel, connection) ∈ l.channels

instance (l : Links) (channel connection : ℕ) : Decidable (l.Serves channel connection) :=
  inferInstanceAs (Decidable (_ ∧ _))

/-- A new connection, which may have closed before the client looks at it. -/
def connect (l : Links) (alive : Bool) : Links where
  connections := if alive then l.next :: l.connections else l.connections
  channels := l.channels
  next := l.next + 1
  connections_lt := by
    intro connection h
    have hmem : connection = l.next ∨ connection ∈ l.connections := by
      split at h
      · exact List.mem_cons.mp h
      · exact .inr h
    rcases hmem with rfl | hmem
    · exact Nat.lt_succ_self _
    · exact (l.connections_lt connection hmem).trans (Nat.lt_succ_self _)
  channels_lt := by
    intro link h
    obtain ⟨hchannel, hconnection⟩ := l.channels_lt link h
    exact ⟨hchannel.trans (Nat.lt_succ_self _), hconnection.trans (Nat.lt_succ_self _)⟩

/-- A new channel, which is open if it arrives alive on a connection that is. -/
def createChannel (l : Links) (connection : ℕ) (alive : Bool) : Links where
  connections := l.connections
  channels := if alive ∧ connection ∈ l.connections then (l.next, connection) :: l.channels
    else l.channels
  next := l.next + 1
  connections_lt := fun other h => (l.connections_lt other h).trans (Nat.lt_succ_self _)
  channels_lt := by
    intro link h
    have hold : link ∈ l.channels → link.1 < l.next + 1 ∧ link.2 < l.next + 1 := fun hmem =>
      ⟨(l.channels_lt link hmem).1.trans (Nat.lt_succ_self _),
        (l.channels_lt link hmem).2.trans (Nat.lt_succ_self _)⟩
    split at h
    · rename_i hopen
      rcases List.mem_cons.mp h with rfl | hmem
      · exact ⟨Nat.lt_succ_self _, (l.connections_lt _ hopen.2).trans (Nat.lt_succ_self _)⟩
      · exact hold hmem
    · exact hold h

/-- The channels of a connection close with it. -/
def close (l : Links) (connection : ℕ) : Links where
  connections := l.connections.filter fun other => other ≠ connection
  channels := l.channels.filter fun link => link.2 ≠ connection
  next := l.next
  connections_lt := fun other h => l.connections_lt other (List.mem_of_mem_filter h)
  channels_lt := fun link h => l.channels_lt link (List.mem_of_mem_filter h)

def closeChannel (l : Links) (channel : ℕ) : Links where
  connections := l.connections
  channels := l.channels.filter fun link => link.1 ≠ channel
  next := l.next
  connections_lt := l.connections_lt
  channels_lt := fun link h => l.channels_lt link (List.mem_of_mem_filter h)

variable {l : Links} {channel connection : ℕ}

theorem serves_close (other : ℕ) : (l.close other).Serves channel connection ↔
    l.Serves channel connection ∧ connection ≠ other := by
  simp only [Serves, close, List.mem_filter, decide_eq_true_eq]
  constructor
  · rintro ⟨⟨hconnection, hne⟩, hchannel, -⟩
    exact ⟨⟨hconnection, hchannel⟩, hne⟩
  · rintro ⟨⟨hconnection, hchannel⟩, hne⟩
    exact ⟨⟨hconnection, hne⟩, hchannel, hne⟩

theorem serves_closeChannel (other : ℕ) : (l.closeChannel other).Serves channel connection ↔
    l.Serves channel connection ∧ channel ≠ other := by
  simp only [Serves, closeChannel, List.mem_filter, decide_eq_true_eq, and_assoc]

/-- No channel belongs to a connection that is new. -/
theorem not_serves_next (alive : Bool) : ¬ (l.connect alive).Serves channel l.next := by
  rintro ⟨-, hchannel⟩
  exact absurd (l.channels_lt _ hchannel).2 (Nat.lt_irrefl _)

/-- A new channel serves the connection that it was created on. -/
theorem serves_next (other : ℕ) (alive : Bool) :
    (l.createChannel other alive).Serves l.next connection ↔
      alive = true ∧ other = connection ∧ connection ∈ l.connections := by
  have hnew : (l.next, connection) ∉ l.channels := fun hmem =>
    absurd (l.channels_lt _ hmem).1 (Nat.lt_irrefl _)
  simp only [Serves, createChannel]
  split
  · rename_i hopen
    simp only [List.mem_cons, Prod.mk.injEq, hnew, or_false, true_and]
    constructor
    · rintro ⟨hmem, rfl⟩
      exact ⟨hopen.1, rfl, hmem⟩
    · rintro ⟨-, rfl, hmem⟩
      exact ⟨hmem, rfl⟩
  · rename_i hopen
    constructor
    · rintro ⟨-, hmem⟩
      exact absurd hmem hnew
    · rintro ⟨halive, rfl, hmem⟩
      exact absurd ⟨halive, hmem⟩ hopen

end Links

/-- A callback that awaits an answer, and `this.connection` when it made its call. -/
structure Waiting where
  connection : Option ℕ
  rest : Handler Unit

structure Client where
  connection : Option ℕ
  channel : Option ℕ
  reconnectAttempts : ℕ
  isReconnecting : Bool
  timers : List ℕ
  running : List Waiting
  listening : List ℕ
  links : Links

namespace Client

def isHealthy (s : Client) : Bool := s.channel.isSome && s.connection.isSome

def scheduleReconnect (s : Client) : Client :=
  if s.isReconnecting then s
  else if s.reconnectAttempts ≥ maxReconnectAttempts then s
  else { s with
    isReconnecting := true
    reconnectAttempts := s.reconnectAttempts + 1
    timers := s.timers ++ [initialReconnectDelayMs * 2 ^ s.reconnectAttempts] }

/-- `this.connection.on('close', …)` -/
def onClose (s : Client) : Client :=
  { s with listening := s.connection.toList ++ s.listening }

/-- Await the answer to a call. -/
def await (s : Client) (p : Handler Unit) : Client :=
  { s with running := s.running ++ [⟨s.connection, p⟩] }

/-- Run a callback up to its next `await`. -/
def advance : Handler Unit → Client → Client
  | .perform .resetAttempts next, s => advance (next ()) { s with reconnectAttempts := 0 }
  | .perform .onClose next, s => advance (next ()) s.onClose
  | .perform (.consume _) next, s => advance (next ()) s
  | .perform .reconnected next, s => advance (next ()) s
  | .perform (.reconnectFailed _) next, s => advance (next ()) s
  | .perform .stopReconnecting next, s => advance (next ()) { s with isReconnecting := false }
  | p@(.perform (.amqpConnect _) _), s | p@(.perform .createChannel _), s
  | p@(.perform (.assertQueue _) _), s => s.await p
  | .done _, s => s

/-- `this.connection = …` -/
def setConnection (s : Client) (alive : Bool) : Client :=
  { s with connection := some s.links.next, links := s.links.connect alive }

/-- `this.channel = …`, for a channel of the connection on which the call was made. -/
def setChannel (s : Client) (connection : Option ℕ) (alive : Bool) : Client :=
  { s with
    channel := some s.links.next
    links := s.links.createChannel (connection.getD s.links.next) alive }

end Client

/-- A call fails, or is answered; what the answer brings may be closed by then. -/
inductive Answer where
  | failed (e : JsError)
  | arrived (alive : Bool)

def Answer.outcome : Answer → Except JsError Unit
  | failed e => .error e
  | arrived _ => .ok ()

inductive Event where
  | connect
  | fire (i : ℕ)
  | answer (i : ℕ) (answer : Answer)
  | close (connection : ℕ)
  | closeChannel (channel : ℕ)

/-- `connect` of a service, which may have no broker URL. -/
def connectCall : Option Config → Handler Unit
  | none => throw (.failure "Missing MESSAGE_BROKER_URL")
  | some c => connect c

/-- The fields after an answer to the call that `w` awaits. -/
def assigned (s : Client) (w : Waiting) : Answer → Client
  | .failed _ => s
  | .arrived alive =>
    match w.rest with
    | .perform (.amqpConnect _) _ => s.setConnection alive
    | .perform .createChannel _ => s.setChannel w.connection alive
    | _ => s

/-- What is left of a callback after the answer. -/
def resumed (w : Waiting) (answer : Answer) : Handler Unit :=
  match w.rest with
  | .perform (.amqpConnect _) next => next answer.outcome
  | .perform .createChannel next => next answer.outcome
  | .perform (.assertQueue _) next => next answer.outcome
  | p => p

def step (c : Option Config) (s : Client) : Event → Client
  | .connect => Client.advance (connectCall c) s
  | .fire i =>
    if i < s.timers.length then
      Client.advance (attempting (connectCall c)) { s with timers := s.timers.eraseIdx i }
    else s
  | .answer i answer =>
    match s.running[i]? with
    | none => s
    | some w => Client.advance (resumed w answer)
        (assigned { s with running := s.running.eraseIdx i } w answer)
  | .close connection =>
    if connection ∈ s.links.connections then
      let closed := { s with links := s.links.close connection }
      if connection ∈ s.listening then closed.scheduleReconnect else closed
    else s
  | .closeChannel channel => { s with links := s.links.closeChannel channel }

/-- The client before its first `connect`. -/
def unconnected : Client := ⟨none, none, 0, false, [], [], [], .empty⟩

def clientAfter (c : Option Config) (run : List Event) : Client := run.foldl (step c) unconnected

theorem clientAfter_concat (c : Option Config) (run : List Event) (event : Event) :
    clientAfter c (run ++ [event]) = step c (clientAfter c run) event := by
  simp [clientAfter]

/-- The current connection and its channel are open. -/
def Connected (s : Client) : Prop :=
  ∃ channel ∈ s.channel, ∃ connection ∈ s.connection, s.links.Serves channel connection

def Truthful (s : Client) : Prop := s.isHealthy = true ↔ Connected s

/-- The route `/health`; the provider of the health of Redis may be missing. -/
def health (isInitialized : Bool) (redisHealth : Option Bool) (s : Client) : ℕ × String :=
  let healthy := isInitialized && s.isHealthy && redisHealth.getD true
  (if healthy then 200 else 503, if healthy then "ok" else "degraded")

theorem truthful_iff_serves (s : Client) : Truthful s ↔ ∀ channel ∈ s.channel,
    ∀ connection ∈ s.connection, s.links.Serves channel connection := by
  have hhealthy : s.isHealthy = true ↔
      (∃ channel, channel ∈ s.channel) ∧ ∃ connection, connection ∈ s.connection := by
    simp only [Client.isHealthy, Bool.and_eq_true, Option.isSome_iff_exists, Option.mem_def]
  rw [Truthful, hhealthy]
  constructor
  · intro h channel hchannel connection hconnection
    obtain ⟨channel', hchannel', connection', hconnection', hserves⟩ :=
      h.mp ⟨⟨channel, hchannel⟩, ⟨connection, hconnection⟩⟩
    obtain rfl := Option.mem_unique hchannel hchannel'
    obtain rfl := Option.mem_unique hconnection hconnection'
    exact hserves
  · intro h
    constructor
    · rintro ⟨⟨channel, hchannel⟩, ⟨connection, hconnection⟩⟩
      exact ⟨channel, hchannel, connection, hconnection, h _ hchannel _ hconnection⟩
    · rintro ⟨channel, hchannel, connection, hconnection, -⟩
      exact ⟨⟨channel, hchannel⟩, ⟨connection, hconnection⟩⟩

/-- What the answer of a call may bring: a connection before there is a channel, and a channel of
the current connection, both open. -/
def HarmlessAnswer (s : Client) (w : Waiting) (alive : Bool) : Prop :=
  match w.rest with
  | .perform (.amqpConnect _) _ => s.channel = none
  | .perform .createChannel _ => alive = true ∧
      ∃ connection ∈ s.connection, w.connection = some connection ∧
        connection ∈ s.links.connections
  | _ => True

/-- The event closes nothing in use, and assigns no field that would not fit the other. -/
def Harmless (s : Client) : Event → Prop
  | .connect | .fire _ | .answer _ (.failed _) => True
  | .answer i (.arrived alive) => ∀ w, s.running[i]? = some w → HarmlessAnswer s w alive
  | .close connection => s.connection = some connection → s.channel = none
  | .closeChannel channel => s.channel = some channel → s.connection = none

/-- The fields and the links are the same. -/
structure SameFields (s s' : Client) : Prop where
  connection : s'.connection = s.connection
  channel : s'.channel = s.channel
  links : s'.links = s.links

theorem SameFields.trans {s s' s'' : Client} (h : SameFields s s') (h' : SameFields s' s'') :
    SameFields s s'' :=
  ⟨h'.connection.trans h.connection, h'.channel.trans h.channel, h'.links.trans h.links⟩

theorem SameFields.truthful_congr {s s' : Client} (h : SameFields s s') :
    Truthful s' ↔ Truthful s := by
  rw [truthful_iff_serves, truthful_iff_serves, h.connection, h.channel, h.links]

/-- A callback assigns neither field between two answers. -/
theorem advance_same (p : Handler Unit) (s : Client) : SameFields s (Client.advance p s) := by
  induction p generalizing s with
  | done r => exact ⟨rfl, rfl, rfl⟩
  | perform op next ih =>
    cases op with
    | amqpConnect brokerUrl => exact ⟨rfl, rfl, rfl⟩
    | createChannel => exact ⟨rfl, rfl, rfl⟩
    | assertQueue queue => exact ⟨rfl, rfl, rfl⟩
    | resetAttempts =>
      have hreset : SameFields s { s with reconnectAttempts := 0 } := ⟨rfl, rfl, rfl⟩
      exact hreset.trans (ih () _)
    | onClose =>
      have hlistens : SameFields s s.onClose := ⟨rfl, rfl, rfl⟩
      exact hlistens.trans (ih () _)
    | stopReconnecting =>
      have hstops : SameFields s { s with isReconnecting := false } := ⟨rfl, rfl, rfl⟩
      exact hstops.trans (ih () _)
    | consume queue => exact ih () s
    | reconnected => exact ih () s
    | reconnectFailed err => exact ih () s

/-- The program calls `createChannel` only after it has been given a connection. -/
def ConnectsFirst : Handler Unit → Prop
  | .perform .createChannel _ => False
  | .perform (.amqpConnect _) next => ∀ e, ConnectsFirst (next (.error e))
  | .perform _ next => ∀ a, ConnectsFirst (next a)
  | .done _ => True

theorem connectCall_connectsFirst (c : Option Config) : ConnectsFirst (connectCall c) := by
  cases c with
  | none => trivial
  | some c =>
    rw [connectCall, connect_eq]
    exact fun e => trivial

theorem attempting_connectsFirst (c : Option Config) :
    ConnectsFirst (attempting (connectCall c)) := by
  cases c with
  | none => exact fun _ _ => trivial
  | some c =>
    rw [connectCall, connect_eq]
    exact fun e _ _ => trivial

/-- No callback awaits a channel unless a connection has been assigned. -/
def Inv (s : Client) : Prop := s.connection = none → ∀ w ∈ s.running, ConnectsFirst w.rest

theorem await_inv {s : Client} (h : Inv s) {p : Handler Unit}
    (hp : s.connection = none → ConnectsFirst p) : Inv (s.await p) := by
  intro hnone w hw
  rcases List.mem_append.mp hw with hw | hw
  · exact h hnone w hw
  · obtain rfl := List.mem_singleton.mp hw
    exact hp hnone

theorem advance_inv {p : Handler Unit} {s : Client} (h : Inv s)
    (hp : s.connection = none → ConnectsFirst p) : Inv (Client.advance p s) := by
  induction p generalizing s with
  | done r => exact h
  | perform op next ih =>
    cases op with
    | amqpConnect brokerUrl => exact await_inv h hp
    | createChannel => exact await_inv h hp
    | assertQueue queue => exact await_inv h hp
    | resetAttempts => exact @ih () { s with reconnectAttempts := 0 } h fun hnone => hp hnone ()
    | onClose => exact @ih () s.onClose h fun hnone => hp hnone ()
    | stopReconnecting => exact @ih () { s with isReconnecting := false } h fun hnone => hp hnone ()
    | consume queue => exact ih () h fun hnone => hp hnone ()
    | reconnected => exact ih () h fun hnone => hp hnone ()
    | reconnectFailed err => exact ih () h fun hnone => hp hnone ()

section Steps

variable {c : Option Config} {s : Client}

theorem scheduleReconnect_same (s : Client) : SameFields s s.scheduleReconnect := by
  unfold Client.scheduleReconnect
  split
  · exact ⟨rfl, rfl, rfl⟩
  · split
    · exact ⟨rfl, rfl, rfl⟩
    · exact ⟨rfl, rfl, rfl⟩

/-- A connection that is open closes. -/
theorem step_close (c : Option Config) {connection : ℕ} (h : connection ∈ s.links.connections) :
    SameFields { s with links := s.links.close connection } (step c s (.close connection)) := by
  simp only [step, if_pos h]
  split
  · exact scheduleReconnect_same _
  · exact ⟨rfl, rfl, rfl⟩

theorem close_truthful_iff (h : Truthful s) (connection : ℕ) :
    Truthful (step c s (.close connection)) ↔ Harmless s (.close connection) := by
  rw [truthful_iff_serves] at h
  by_cases hopen : connection ∈ s.links.connections
  · rw [(step_close c hopen).truthful_congr, truthful_iff_serves]
    constructor
    · intro hserves hcurrent
      cases hchannel : s.channel with
      | none => rfl
      | some channel =>
        have hclosed := hserves channel hchannel connection hcurrent
        exact absurd rfl ((Links.serves_close connection).mp hclosed).2
    · intro hharmless channel hchannel current hcurrent
      refine (Links.serves_close connection).mpr ⟨h channel hchannel current hcurrent, ?_⟩
      rintro rfl
      exact absurd (hchannel.symm.trans (hharmless hcurrent)) (Option.some_ne_none channel)
  · rw [step, if_neg hopen]
    refine iff_of_true ((truthful_iff_serves s).mpr h) fun hcurrent => ?_
    cases hchannel : s.channel with
    | none => rfl
    | some channel => exact absurd (h channel hchannel connection hcurrent).1 hopen

theorem closeChannel_truthful_iff (h : Truthful s) (channel : ℕ) :
    Truthful (step c s (.closeChannel channel)) ↔ Harmless s (.closeChannel channel) := by
  rw [truthful_iff_serves] at h
  rw [truthful_iff_serves]
  constructor
  · intro hserves hcurrent
    cases hconnection : s.connection with
    | none => rfl
    | some connection =>
      have hclosed := hserves channel hcurrent connection hconnection
      exact absurd rfl ((Links.serves_closeChannel channel).mp hclosed).2
  · intro hharmless current hcurrent connection hconnection
    refine (Links.serves_closeChannel channel).mpr ⟨h current hcurrent _ hconnection, ?_⟩
    rintro rfl
    exact absurd (hconnection.symm.trans (hharmless hcurrent)) (Option.some_ne_none connection)

theorem setConnection_truthful_iff (alive : Bool) :
    Truthful (s.setConnection alive) ↔ s.channel = none := by
  rw [truthful_iff_serves]
  constructor
  · intro h
    cases hchannel : s.channel with
    | none => rfl
    | some channel =>
      exact absurd (h channel hchannel s.links.next rfl) (Links.not_serves_next alive)
  · intro hnone channel hchannel
    rw [Client.setConnection, hnone] at hchannel
    cases hchannel

theorem setChannel_truthful_iff {connection : ℕ} (hconnection : s.connection = some connection)
    (target : Option ℕ) (alive : Bool) : Truthful (s.setChannel target alive) ↔
      alive = true ∧ target = some connection ∧ connection ∈ s.links.connections := by
  have hfields : Truthful (s.setChannel target alive) ↔
      (s.links.createChannel (target.getD s.links.next) alive).Serves s.links.next connection := by
    rw [truthful_iff_serves]
    constructor
    · exact fun h => h s.links.next rfl connection hconnection
    · rintro h channel ⟨⟩ connection' hconnection'
      obtain rfl := Option.some.inj (hconnection.symm.trans hconnection')
      exact h
  rw [hfields, Links.serves_next]
  refine and_congr_right fun _ => and_congr_left fun hmem => ?_
  cases target with
  | none =>
    have hlt : connection < s.links.next := s.links.connections_lt connection hmem
    refine iff_of_false (fun heq => ?_) (by simp)
    exact absurd (heq ▸ hlt) (Nat.lt_irrefl _)
  | some other => simp

/-- What an answer assigns is truthful exactly if it is harmless. -/
theorem assigned_truthful_iff (h : Truthful s) {w : Waiting}
    (hw : s.connection = none → ConnectsFirst w.rest) (alive : Bool) :
    Truthful (assigned s w (.arrived alive)) ↔ HarmlessAnswer s w alive := by
  obtain ⟨target, rest⟩ := w
  cases rest with
  | done r => exact iff_of_true h trivial
  | perform op next =>
    cases op with
    | amqpConnect brokerUrl => exact setConnection_truthful_iff alive
    | createChannel =>
      cases hconnection : s.connection with
      | none => exact (hw hconnection).elim
      | some connection =>
        refine (setChannel_truthful_iff hconnection target alive).trans ?_
        simp [HarmlessAnswer, hconnection]
    | _ => exact iff_of_true h trivial

theorem answer_truthful_iff (hinv : Inv s) (h : Truthful s) (i : ℕ) (answer : Answer) :
    Truthful (step c s (.answer i answer)) ↔ Harmless s (.answer i answer) := by
  cases hw : s.running[i]? with
  | none =>
    have hstep : step c s (.answer i answer) = s := by simp only [step, hw]
    rw [hstep]
    refine iff_of_true h ?_
    cases answer with
    | failed e => trivial
    | arrived alive => exact fun w hsome => absurd (hw.symm.trans hsome) (by simp)
  | some w =>
    have hmem : w ∈ s.running := List.mem_of_getElem? hw
    have hsame : SameFields (assigned { s with running := s.running.eraseIdx i } w answer)
        (step c s (.answer i answer)) := by
      simp only [step, hw]
      exact advance_same _ _
    rw [hsame.truthful_congr]
    cases answer with
    | failed e => exact iff_of_true h trivial
    | arrived alive =>
      have hassigned := assigned_truthful_iff (s := { s with running := s.running.eraseIdx i }) h
        (fun hnone => hinv hnone w hmem) alive
      rw [hassigned]
      constructor
      · intro hharmless w' hw'
        obtain rfl := Option.some.inj (hw.symm.trans hw')
        exact hharmless
      · exact fun hharmless => hharmless w hw

theorem assigned_inv (h : Inv s) (w : Waiting) (answer : Answer) : Inv (assigned s w answer) := by
  unfold assigned
  split
  · exact h
  · split
    · exact fun hnone => absurd hnone (Option.some_ne_none _)
    · exact h
    · exact h

/-- What is left of a callback calls `createChannel` only on a connection. -/
theorem resumed_connectsFirst {w : Waiting} (hw : s.connection = none → ConnectsFirst w.rest)
    (answer : Answer) (hnone : (assigned s w answer).connection = none) :
    ConnectsFirst (resumed w answer) := by
  obtain ⟨target, rest⟩ := w
  cases rest with
  | done r => trivial
  | perform op next =>
    cases op with
    | amqpConnect brokerUrl =>
      cases answer with
      | failed e => exact hw hnone e
      | arrived alive => exact absurd hnone (Option.some_ne_none _)
    | createChannel => cases answer <;> exact (hw hnone).elim
    | assertQueue queue => cases answer <;> exact hw hnone _
    | _ => cases answer <;> exact hw hnone

theorem answer_inv (h : Inv s) (i : ℕ) (answer : Answer) :
    Inv (step c s (.answer i answer)) := by
  cases hw : s.running[i]? with
  | none =>
    have hstep : step c s (.answer i answer) = s := by simp only [step, hw]
    rw [hstep]
    exact h
  | some w =>
    have hrest : Inv { s with running := s.running.eraseIdx i } :=
      fun hnone w' hw' => h hnone w' (List.mem_of_mem_eraseIdx hw')
    simp only [step, hw]
    apply advance_inv (assigned_inv hrest w answer)
    apply resumed_connectsFirst
    exact fun hnone => h hnone w (List.mem_of_getElem? hw)

theorem close_inv (h : Inv s) (connection : ℕ) : Inv (step c s (.close connection)) := by
  simp only [step]
  split
  · split
    · unfold Client.scheduleReconnect
      split
      · exact h
      · split
        · exact h
        · exact h
    · exact h
  · exact h

theorem step_inv (h : Inv s) (event : Event) : Inv (step c s event) := by
  cases event with
  | connect => exact advance_inv h fun _ => connectCall_connectsFirst c
  | fire i =>
    simp only [step]
    split
    · exact advance_inv h fun _ => attempting_connectsFirst c
    · exact h
  | answer i answer => exact answer_inv h i answer
  | close connection => exact close_inv h connection
  | closeChannel channel => exact h

theorem step_truthful_iff (hinv : Inv s) (h : Truthful s) (event : Event) :
    Truthful (step c s event) ↔ Harmless s event := by
  cases event with
  | connect => exact iff_of_true ((advance_same _ s).truthful_congr.mpr h) trivial
  | fire i =>
    refine iff_of_true ?_ trivial
    simp only [step]
    split
    · exact (advance_same _ _).truthful_congr.mpr h
    · exact h
  | answer i answer => exact answer_truthful_iff hinv h i answer
  | close connection => exact close_truthful_iff h connection
  | closeChannel channel => exact closeChannel_truthful_iff h channel

end Steps

theorem clientAfter_inv (c : Option Config) (run : List Event) : Inv (clientAfter c run) := by
  induction run using List.reverseRecOn with
  | nil => exact fun _ w hw => absurd hw List.not_mem_nil
  | append_singleton run event ih =>
    rw [clientAfter_concat]
    exact step_inv ih event

theorem unconnected_truthful : Truthful unconnected :=
  (truthful_iff_serves unconnected).mpr fun _ h => by cases h

/-- Health is truthful in every state of a run if and only if every event of it is harmless. -/
theorem truthful_throughout_iff (c : Option Config) (run : List Event) :
    (∀ history, history <+: run → Truthful (clientAfter c history)) ↔
      ∀ before event rest, run = before ++ event :: rest →
        Harmless (clientAfter c before) event := by
  constructor
  · rintro h before event rest rfl
    have hbefore := h before (List.prefix_append _ _)
    have hafter := h (before ++ [event]) ⟨rest, by simp⟩
    rw [clientAfter_concat] at hafter
    exact (step_truthful_iff (clientAfter_inv c before) hbefore event).mp hafter
  · rintro h history ⟨rest, rfl⟩
    induction history using List.reverseRecOn generalizing rest with
    | nil => exact unconnected_truthful
    | append_singleton history event ih =>
      have hbefore := ih (event :: rest) (by simpa using h)
      have hharmless := h history event rest (by simp)
      rw [clientAfter_concat]
      exact (step_truthful_iff (clientAfter_inv c history) hbefore event).mpr hharmless

/-- The first `connect` succeeds, then the broker closes the connection. -/
def brokerDown : List Event :=
  [.connect, .answer 0 (.arrived true), .answer 0 (.arrived true), .answer 0 (.arrived true),
    .answer 0 (.arrived true), .answer 0 (.arrived true), .close 0]

def deployed : Config := chatService (js "amqp://rabbitmq") (by decide) (js "NOTIFICATIONS")

/-- Health is reported while no connection is open. -/
theorem brokerDown_healthy :
    ¬ Truthful (clientAfter deployed brokerDown) ∧
      (clientAfter deployed brokerDown).links.connections = [] ∧
      health true (some true) (clientAfter deployed brokerDown) = (200, "ok") := by
  have hdown : (clientAfter deployed brokerDown).links.connections = [] := by decide +kernel
  have hhealthy : (clientAfter deployed brokerDown).isHealthy = true := by decide +kernel
  refine ⟨fun htruthful => ?_, hdown, by decide +kernel⟩
  obtain ⟨channel, -, connection, -, hopen, -⟩ := htruthful.mp hhealthy
  rw [hdown] at hopen
  cases hopen

end ChatMicroservices.BrokerHealth

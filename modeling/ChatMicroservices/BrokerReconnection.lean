import ChatMicroservices.EffectPrograms
import ChatMicroservices.JavaScriptValues
import Mathlib.Data.List.Induction

/-!
# Reconnecting to the broker

The method `connect` of the three broker clients, the listener that it registers for the
closing of the connection, and the timeout that connects again. Each awaited call is answered
by the broker at some later time, and the connection may close before.
-/

namespace ChatMicroservices.BrokerReconnection
open JavaScriptValues EffectPrograms

/-- What the client does: three calls that it awaits, and steps that take effect at once. -/
inductive Op where
  | amqpConnect (brokerUrl : JsString)
  | createChannel
  | assertQueue (queue : JsString)
  | resetAttempts
  | onClose
  | consume (queue : JsString)
  | reconnected
  | reconnectFailed (err : JsError)
  | stopReconnecting

@[reducible] def Ans : Op → Type
  | .amqpConnect _ | .createChannel | .assertQueue _ => Except JsError Unit
  | .resetAttempts | .onClose | .consume _ => Unit
  | .reconnected | .reconnectFailed _ | .stopReconnecting => Unit

abbrev Handler (α : Type) := Program Ans JsError α

def perform (op : Op) : Handler (Ans op) := Program.call op

/-- What the clients differ in. A client that has been connected has a broker URL. -/
structure Config where
  msgBrokerURL : JsString
  asserted : List JsString
  consumed : JsString
  msgBrokerURL_ne : msgBrokerURL ≠ []

def requestQueue : JsString := js "USER_DETAILS_REQUEST"

def responseQueue : JsString := js "USER_DETAILS_RESPONSE"

section Clients

variable (msgBrokerURL : JsString) (h : msgBrokerURL ≠ []) (notifications : JsString)

def chatService : Config where
  msgBrokerURL := msgBrokerURL
  asserted := [requestQueue, responseQueue, notifications]
  consumed := responseQueue
  msgBrokerURL_ne := h

def userService : Config where
  msgBrokerURL := msgBrokerURL
  asserted := [requestQueue, responseQueue, notifications]
  consumed := requestQueue
  msgBrokerURL_ne := h

def notificationService : Config where
  msgBrokerURL := msgBrokerURL
  asserted := [notifications]
  consumed := notifications
  msgBrokerURL_ne := h

end Clients

def maxReconnectAttempts : ℕ := 10

def initialReconnectDelayMs : ℕ := 1000

/-- `await this.channel.assertQueue(…)` for each queue. -/
def assertQueues : List JsString → Handler Unit
  | [] => pure ()
  | queue :: queues => do
    Program.attempt (perform (.assertQueue queue))
    assertQueues queues

/-- The part of `connect` after the listeners are registered. -/
def consumeQueues (queues : List JsString) (consumed : JsString) : Handler Unit := do
  assertQueues queues
  perform (.consume consumed)

/-- The part of `connect` after the connection is open. -/
def openChannel (c : Config) : Handler Unit := do
  Program.attempt (perform .createChannel)
  perform .resetAttempts
  perform .onClose
  consumeQueues c.asserted c.consumed

def connect (c : Config) : Handler Unit :=
  if c.msgBrokerURL = [] then throw (.failure "Missing MESSAGE_BROKER_URL")
  else do
    Program.attempt (perform (.amqpConnect c.msgBrokerURL))
    openChannel c

theorem connect_eq (c : Config) : connect c = (do
    Program.attempt (perform (.amqpConnect c.msgBrokerURL))
    openChannel c) := if_neg c.msgBrokerURL_ne

/-- `try { await …; logInfo(…) } catch (err) { logError(…) } finally { … }` -/
def attempting (p : Handler Unit) : Handler Unit :=
  Program.tryFinally
    (Program.tryCatch (do p; perform .reconnected) fun err => perform (.reconnectFailed err))
    (perform .stopReconnecting)

/-- The callback of the timeout. -/
def reconnect (c : Config) : Handler Unit := attempting (connect c)

inductive Connection where
  | closed
  | opened (listening : Bool)
  deriving DecidableEq

/-- The fields of the client, the delays of its pending timeouts, the callbacks that await an
answer, and the number of attempts that have failed since the last successful one. -/
structure Client where
  connection : Connection
  reconnectAttempts : ℕ
  isReconnecting : Bool
  timers : List ℕ
  running : List (Handler Unit)
  failures : ℕ

namespace Client

def scheduleReconnect (s : Client) : Client :=
  if s.isReconnecting then s
  else if s.reconnectAttempts ≥ maxReconnectAttempts then s
  else { s with
    isReconnecting := true
    reconnectAttempts := s.reconnectAttempts + 1
    timers := s.timers ++ [initialReconnectDelayMs * 2 ^ s.reconnectAttempts] }

/-- A closed connection does not close again, so a listener on it is never called. -/
def listen (s : Client) : Client :=
  match s.connection with
  | .closed => s
  | .opened _ => { s with connection := .opened true }

/-- Run a callback up to its next `await`. -/
def advance : Handler Unit → Client → Client
  | .perform .resetAttempts next, s => advance (next ()) { s with reconnectAttempts := 0 }
  | .perform .onClose next, s => advance (next ()) s.listen
  | .perform (.consume _) next, s => advance (next ()) s
  | .perform .reconnected next, s => advance (next ()) { s with failures := 0 }
  | .perform (.reconnectFailed _) next, s =>
    advance (next ()) { s with failures := s.failures + 1 }
  | .perform .stopReconnecting next, s => advance (next ()) { s with isReconnecting := false }
  | p@(.perform (.amqpConnect _) _), s | p@(.perform .createChannel _), s
  | p@(.perform (.assertQueue _) _), s => { s with running := s.running ++ [p] }
  | .done _, s => s

/-- What an answered call changes, and the rest of the callback that awaits it. -/
def answered (s : Client) (i : ℕ) (answer : Except JsError Unit) :
    Option (Handler Unit × Client) :=
  let rest := { s with running := s.running.eraseIdx i }
  match s.running[i]? with
  | some (.perform (.amqpConnect _) next) =>
    some (next answer, match answer with
      | .ok () => { rest with connection := .opened false }
      | .error _ => rest)
  | some (.perform .createChannel next) => some (next answer, rest)
  | some (.perform (.assertQueue _) next) => some (next answer, rest)
  | _ => none

end Client

inductive Event where
  | close
  | fire (i : ℕ)
  | answer (i : ℕ) (answer : Except JsError Unit)

def step (c : Config) (s : Client) : Event → Client
  | .close =>
    match s.connection with
    | .closed => s
    | .opened listening =>
      let s := { s with connection := .closed }
      if listening then s.scheduleReconnect else s
  | .fire i =>
    if i < s.timers.length then
      Client.advance (reconnect c) { s with timers := s.timers.eraseIdx i }
    else s
  | .answer i answer =>
    match s.answered i answer with
    | some (rest, s) => Client.advance rest s
    | none => s

/-- The client after its first `connect` has succeeded. -/
def connected : Client := ⟨.opened true, 0, false, [], [], 0⟩

/-- The client before its first `connect`. -/
def unconnected : Client := ⟨.closed, 0, false, [], [], 0⟩

theorem consumeQueues_succeeds (c : Config) (queues : List JsString) (consumed : JsString) :
    (List.replicate queues.length (Event.answer 0 (.ok ()))).foldl (step c)
      (Client.advance (consumeQueues queues consumed) connected) = connected := by
  induction queues with
  | nil => rfl
  | cons queue queues ih =>
    have hstep : step c (Client.advance (consumeQueues (queue :: queues) consumed) connected)
        (.answer 0 (.ok ())) = Client.advance (consumeQueues queues consumed) connected := rfl
    rw [List.length_cons, List.replicate_succ, List.foldl_cons, hstep]
    exact ih

/-- If the broker answers every call of the first `connect`, the client is connected. -/
theorem first_connect (c : Config) :
    (List.replicate (c.asserted.length + 2) (Event.answer 0 (.ok ()))).foldl (step c)
      (Client.advance (connect c) unconnected) = connected := by
  have hopen : step c (step c (Client.advance (connect c) unconnected) (.answer 0 (.ok ())))
      (.answer 0 (.ok ())) =
        Client.advance (consumeQueues c.asserted c.consumed) connected := by
    rw [connect_eq]
    rfl
  rw [List.replicate_succ, List.foldl_cons, List.replicate_succ, List.foldl_cons, hopen]
  exact consumeQueues_succeeds c c.asserted c.consumed

/-- The rest of an attempt that awaits an answer. -/
inductive Phase (c : Config) where
  | connecting
  | creating
  | asserting (queue : JsString) (queues : List JsString)

def Phase.rest {c : Config} : Phase c → Handler Unit
  | connecting => connect c
  | creating => openChannel c
  | asserting queue queues => consumeQueues (queue :: queues) c.consumed

theorem advance_failed (s : Client) (e : JsError) :
    Client.advance (attempting (.done (.error e))) s =
      { s with failures := s.failures + 1, isReconnecting := false } := rfl

theorem advance_connecting (c : Config) (s : Client) :
    Client.advance (reconnect c) s =
      { s with running := s.running ++ [attempting (Phase.connecting (c := c)).rest] } := by
  rw [reconnect, Phase.rest, connect_eq]
  rfl

theorem advance_consume (consumed : JsString) (s : Client) :
    Client.advance (attempting (consumeQueues [] consumed)) s =
      { s with failures := 0, isReconnecting := false } := rfl

theorem advance_asserting (c : Config) (queue : JsString) (queues : List JsString) (s : Client) :
    Client.advance (attempting (consumeQueues (queue :: queues) c.consumed)) s =
      { s with
        running := s.running ++ [attempting (Phase.asserting (c := c) queue queues).rest] } :=
  rfl

/-- What is left of the attempt after the answer. -/
def Phase.resume {c : Config} : Phase c → Except JsError Unit → Handler Unit
  | connecting, .ok () => openChannel c
  | creating, .ok () => do
    perform .resetAttempts
    perform .onClose
    consumeQueues c.asserted c.consumed
  | asserting _ queues, .ok () => consumeQueues queues c.consumed
  | _, .error e => .done (.error e)

/-- The connection after the answer. -/
def Phase.connection {c : Config} (connection : Connection) :
    Phase c → Except JsError Unit → Connection
  | connecting, .ok () => .opened false
  | _, _ => connection

section Answers

variable {c : Config} {s : Client} {phase : Phase c}

theorem answered_phase (h : s.running = [attempting phase.rest]) (answer : Except JsError Unit) :
    s.answered 0 answer = some (attempting (phase.resume answer),
      { s with running := [], connection := phase.connection s.connection answer }) := by
  have hrest : s.running.eraseIdx 0 = [] :=
    congrArg (fun running : List (Handler Unit) => running.eraseIdx 0) h
  cases phase with
  | connecting =>
    rw [Phase.rest, connect_eq] at h
    have hhead : s.running[0]? = some _ :=
      congrArg (fun running : List (Handler Unit) => running[0]?) h
    simp only [Client.answered, hhead, hrest]
    cases answer <;> rfl
  | creating =>
    have hhead : s.running[0]? = some _ :=
      congrArg (fun running : List (Handler Unit) => running[0]?) h
    simp only [Client.answered, hhead, hrest]
    cases answer <;> rfl
  | asserting queue queues =>
    have hhead : s.running[0]? = some _ :=
      congrArg (fun running : List (Handler Unit) => running[0]?) h
    simp only [Client.answered, hhead, hrest]
    cases answer <;> rfl

theorem answered_other (h : s.running.length ≤ 1) {i : ℕ} (hi : i ≠ 0)
    (answer : Except JsError Unit) : s.answered i answer = none := by
  have hnone : s.running[i]? = none := List.getElem?_eq_none (by omega)
  simp only [Client.answered, hnone]

end Answers

/-- At most one timeout is pending or one attempt is running, and only while the flag is set.
An attempt that awaits the connection has none, so that opening it replaces no other. -/
inductive Inv (c : Config) : Client → Prop where
  | idle {connection : Connection} {attempts failures : ℕ}
    (h : connection = .opened true → attempts = 0) :
    Inv c ⟨connection, attempts, false, [], [], failures⟩
  | waiting {attempts delay failures : ℕ} :
    Inv c ⟨.closed, attempts, true, [delay], [], failures⟩
  | connecting {attempts failures : ℕ} :
    Inv c ⟨.closed, attempts, true, [], [attempting (Phase.connecting (c := c)).rest], failures⟩
  | creating {connection : Connection} {attempts failures : ℕ} (h : connection ≠ .opened true) :
    Inv c ⟨connection, attempts, true, [], [attempting (Phase.creating (c := c)).rest], failures⟩
  | asserting {connection : Connection} {failures : ℕ} {queue : JsString} {queues : List JsString}
    (h : connection ≠ .opened false) :
    Inv c ⟨connection, 0, true, [],
      [attempting (Phase.asserting (c := c) queue queues).rest], failures⟩

/-- Reconnection has not been abandoned. -/
def Kept (s : Client) : Prop :=
  s.connection = .closed → s.timers ≠ [] ∨ s.running ≠ [] ∨ maxReconnectAttempts ≤ s.failures

/-- The callback runs to its end without awaiting anything. -/
def settles : Handler Unit → Bool
  | .perform .resetAttempts next | .perform .onClose next | .perform (.consume _) next
  | .perform .reconnected next | .perform (.reconnectFailed _) next
  | .perform .stopReconnecting next => settles (next ())
  | .perform (.amqpConnect _) _ | .perform .createChannel _ | .perform (.assertQueue _) _ => false
  | .done _ => true

/-- An attempt that ends leaves its connection open, and a connection that closes while nothing
else goes on has the listener; or ten attempts have failed. -/
def Lasting (s : Client) : Event → Prop
  | .close => s.connection = .opened false → s.timers = [] → s.running = [] →
      maxReconnectAttempts ≤ s.failures
  | .fire _ => True
  | .answer i answer => ∀ rest s', s.answered i answer = some (rest, s') → settles rest = true →
      s'.connection = .closed → ∃ e, answer = .error e ∧ maxReconnectAttempts ≤ s.failures + 1

section Steps

variable {c : Config} {s : Client}

theorem connected_inv : Inv c connected := .idle fun _ => rfl

theorem connected_kept : Kept connected := fun h => by cases h

/-- While an attempt runs, reconnection goes on. -/
theorem kept_of_running (h : s.running ≠ []) : Kept s := fun _ => .inr (.inl h)

theorem kept_at_rest {connection : Connection} {attempts failures : ℕ} {reconnecting : Bool} :
    Kept ⟨connection, attempts, reconnecting, [], [], failures⟩ ↔
      (connection = .closed → maxReconnectAttempts ≤ failures) := by
  constructor
  · intro hkept hclosed
    rcases hkept hclosed with hne | hne | hfailures
    · exact absurd rfl hne
    · exact absurd rfl hne
    · exact hfailures
  · exact fun h hclosed => .inr (.inr (h hclosed))

/-- An attempt that is answered, in terms of its rest. -/
theorem step_answer {phase : Phase c} (h : s.running = [attempting phase.rest])
    (answer : Except JsError Unit) : step c s (.answer 0 answer) =
      Client.advance (attempting (phase.resume answer))
        { s with running := [], connection := phase.connection s.connection answer } := by
  simp only [step, answered_phase h]

theorem lasting_answer {phase : Phase c} (h : s.running = [attempting phase.rest])
    (answer : Except JsError Unit) : Lasting s (.answer 0 answer) ↔
      (settles (attempting (phase.resume answer)) = true →
        phase.connection s.connection answer = .closed →
          ∃ e, answer = .error e ∧ maxReconnectAttempts ≤ s.failures + 1) := by
  rw [Lasting, answered_phase h]
  constructor
  · exact fun hlasting => hlasting _ _ rfl
  · intro hlasting rest s' heq
    obtain ⟨rfl, rfl⟩ := Prod.mk.inj (Option.some.inj heq)
    exact hlasting

/-- An answer to nothing changes nothing. -/
theorem step_other (h : s.running.length ≤ 1) {i : ℕ} (hi : s.running = [] ∨ i ≠ 0)
    (answer : Except JsError Unit) :
    step c s (.answer i answer) = s ∧ Lasting s (.answer i answer) := by
  have hnone : s.answered i answer = none := by
    rcases hi with hempty | hi
    · simp only [Client.answered, hempty, List.getElem?_nil]
    · exact answered_other h hi answer
  constructor
  · simp only [step, hnone]
  · intro rest s' heq
    rw [hnone] at heq
    cases heq

/-- What an event does: it keeps the invariant, and reconnection is not abandoned exactly if
the event is lasting. -/
structure Fine (c : Config) (s : Client) (event : Event) : Prop where
  inv : Inv c (step c s event)
  kept : Kept s → (Kept (step c s event) ↔ Lasting s event)

theorem fine_of_eq (h : Inv c s) {event : Event} (heq : step c s event = s)
    (hlasting : Lasting s event) : Fine c s event := by
  refine ⟨heq.symm ▸ h, fun hkept => ?_⟩
  rw [heq]
  exact iff_of_true hkept hlasting

theorem fine_close (h : Inv c s) : Fine c s .close := by
  cases h with
  | @idle connection attempts failures h =>
    cases connection with
    | closed => exact fine_of_eq (.idle h) rfl fun hopen => by cases hopen
    | opened listening =>
      cases listening with
      | true =>
        obtain rfl := h rfl
        refine ⟨.waiting, fun _ => iff_of_true (fun _ => .inl (List.cons_ne_nil _ _)) ?_⟩
        intro hopen
        cases hopen
      | false =>
        refine ⟨.idle (fun hopen => by cases hopen), fun _ => kept_at_rest.trans ?_⟩
        constructor
        · exact fun hfailures _ _ _ => hfailures rfl
        · exact fun hlasting _ => hlasting rfl rfl rfl
  | waiting => exact fine_of_eq .waiting rfl fun hopen => by cases hopen
  | connecting => exact fine_of_eq .connecting rfl fun hopen => by cases hopen
  | @creating connection attempts failures h =>
    cases connection with
    | closed => exact fine_of_eq (.creating h) rfl fun hopen => by cases hopen
    | opened listening =>
      cases listening with
      | true => exact absurd rfl h
      | false =>
        refine ⟨.creating (by simp), fun _ => iff_of_true ?_ ?_⟩
        · exact kept_of_running (List.cons_ne_nil _ _)
        · exact fun _ _ hempty => absurd hempty (List.cons_ne_nil _ _)
  | @asserting connection failures queue queues h =>
    cases connection with
    | closed => exact fine_of_eq (.asserting h) rfl fun hopen => by cases hopen
    | opened listening =>
      cases listening with
      | false => exact absurd rfl h
      | true =>
        refine ⟨.asserting (by simp), fun _ => iff_of_true ?_ ?_⟩
        · exact kept_of_running (List.cons_ne_nil _ _)
        · intro hopen
          cases hopen

theorem fine_fire (h : Inv c s) (i : ℕ) : Fine c s (.fire i) := by
  cases h with
  | waiting =>
    rename_i attempts delay failures
    by_cases hi : i = 0
    · subst hi
      have hstep : step c ⟨.closed, attempts, true, [delay], [], failures⟩ (.fire 0) =
          ⟨.closed, attempts, true, [], [attempting (Phase.connecting (c := c)).rest],
            failures⟩ := by
        simp [step, advance_connecting]
      refine ⟨hstep ▸ .connecting, fun _ => iff_of_true ?_ trivial⟩
      rw [hstep]
      exact kept_of_running (List.cons_ne_nil _ _)
    · refine fine_of_eq .waiting (if_neg ?_) trivial
      simp only [List.length_singleton]
      omega
  | idle h => exact fine_of_eq (.idle h) rfl trivial
  | connecting => exact fine_of_eq .connecting rfl trivial
  | creating h => exact fine_of_eq (.creating h) rfl trivial
  | asserting h => exact fine_of_eq (.asserting h) rfl trivial

/-- An attempt that fails is over. -/
theorem fine_failed {phase : Phase c} {connection : Connection} {attempts failures : ℕ}
    {e : JsError} (hopen : connection = .opened true → attempts = 0) :
    Fine c ⟨connection, attempts, true, [], [attempting phase.rest], failures⟩
      (.answer 0 (.error e)) := by
  have hresume : phase.resume (.error e) = .done (.error e) := by cases phase <;> rfl
  have hconnection : phase.connection connection (.error e) = connection := by
    cases phase <;> rfl
  have hstep : step c ⟨connection, attempts, true, [], [attempting phase.rest], failures⟩
      (.answer 0 (.error e)) = ⟨connection, attempts, false, [], [], failures + 1⟩ := by
    rw [step_answer rfl, hresume, advance_failed]
    simp only [hconnection]
  refine ⟨hstep ▸ .idle hopen, fun _ => ?_⟩
  rw [hstep, kept_at_rest, lasting_answer rfl, hresume, hconnection]
  constructor
  · exact fun hfailures _ hclosed => ⟨e, rfl, hfailures hclosed⟩
  · intro hlasting hclosed
    obtain ⟨-, -, hfailures⟩ := hlasting rfl hclosed
    exact hfailures

/-- An attempt that has registered the listeners asserts its queues, and is over after the
last one. -/
theorem fine_consume {phase : Phase c} {connection connection' : Connection}
    {attempts failures : ℕ} {queues : List JsString}
    (hstep : step c ⟨connection, attempts, true, [], [attempting phase.rest], failures⟩
      (.answer 0 (.ok ())) = Client.advance (attempting (consumeQueues queues c.consumed))
        ⟨connection', 0, true, [], [], failures⟩)
    (hsettles : settles (attempting (phase.resume (.ok ()))) =
      settles (attempting (consumeQueues queues c.consumed)))
    (hclosed : phase.connection connection (.ok ()) = .closed ↔ connection' = .closed)
    (hlistens : connection' ≠ .opened false) :
    Fine c ⟨connection, attempts, true, [], [attempting phase.rest], failures⟩
      (.answer 0 (.ok ())) := by
  cases queues with
  | nil =>
    rw [advance_consume] at hstep
    refine ⟨hstep ▸ .idle fun _ => rfl, fun _ => ?_⟩
    rw [hstep, kept_at_rest, lasting_answer rfl, hsettles]
    have hnot : ¬ ∃ e : JsError, (.ok () : Except JsError Unit) = .error e ∧
        maxReconnectAttempts ≤ failures + 1 := by
      rintro ⟨e, h, -⟩
      cases h
    constructor
    · exact fun hfailures _ h => absurd (hfailures (hclosed.mp h)) (by simp [maxReconnectAttempts])
    · exact fun hlasting h => absurd (hlasting rfl (hclosed.mpr h)) hnot
  | cons queue queues =>
    rw [advance_asserting] at hstep
    refine ⟨hstep ▸ .asserting hlistens, fun _ => iff_of_true ?_ ?_⟩
    · rw [hstep]
      exact kept_of_running (List.cons_ne_nil _ _)
    · rw [lasting_answer rfl, hsettles]
      intro hend
      cases hend

/-- A connection is there: the attempt creates its channel. -/
theorem fine_connected {attempts failures : ℕ} :
    Fine c ⟨.closed, attempts, true, [], [attempting (Phase.connecting (c := c)).rest], failures⟩
      (.answer 0 (.ok ())) := by
  have hstep : step c ⟨.closed, attempts, true, [],
      [attempting (Phase.connecting (c := c)).rest], failures⟩ (.answer 0 (.ok ())) =
        ⟨.opened false, attempts, true, [], [attempting (Phase.creating (c := c)).rest],
          failures⟩ := by
    rw [step_answer rfl]
    rfl
  refine ⟨hstep ▸ .creating (by simp), fun _ => iff_of_true ?_ ?_⟩
  · rw [hstep]
    exact kept_of_running (List.cons_ne_nil _ _)
  · rw [lasting_answer rfl]
    intro hend
    cases hend

/-- A channel is there: the attempt registers the listeners, unless the connection has closed,
and asserts the queues. -/
theorem fine_created {connection : Connection} {attempts failures : ℕ} :
    Fine c ⟨connection, attempts, true, [], [attempting (Phase.creating (c := c)).rest],
      failures⟩ (.answer 0 (.ok ())) := by
  cases connection with
  | closed =>
    have hstep : step c ⟨.closed, attempts, true, [],
        [attempting (Phase.creating (c := c)).rest], failures⟩ (.answer 0 (.ok ())) =
          Client.advance (attempting (consumeQueues c.asserted c.consumed))
            ⟨.closed, 0, true, [], [], failures⟩ := by
      rw [step_answer rfl]
      rfl
    exact fine_consume hstep rfl Iff.rfl (by simp)
  | opened listening =>
    have hstep : step c ⟨.opened listening, attempts, true, [],
        [attempting (Phase.creating (c := c)).rest], failures⟩ (.answer 0 (.ok ())) =
          Client.advance (attempting (consumeQueues c.asserted c.consumed))
            ⟨.opened true, 0, true, [], [], failures⟩ := by
      rw [step_answer rfl]
      rfl
    exact fine_consume hstep rfl (iff_of_false (by rintro ⟨⟩) (by rintro ⟨⟩)) (by simp)

theorem fine_answer (h : Inv c s) (i : ℕ) (answer : Except JsError Unit) :
    Fine c s (.answer i answer) := by
  by_cases hi : s.running = [] ∨ i ≠ 0
  · have hlength : s.running.length ≤ 1 := by cases h <;> simp
    obtain ⟨hstep, hlasting⟩ := step_other (c := c) hlength hi answer
    exact fine_of_eq h hstep hlasting
  · obtain ⟨hne, hzero⟩ := not_or.mp hi
    obtain rfl : i = 0 := not_not.mp hzero
    cases h with
    | idle h => exact absurd rfl hne
    | waiting => exact absurd rfl hne
    | connecting =>
      cases answer with
      | error e => exact fine_failed fun hopen => by cases hopen
      | ok u => exact fine_connected
    | creating h =>
      cases answer with
      | error e => exact fine_failed fun hopen => absurd hopen h
      | ok u => exact fine_created
    | asserting h =>
      cases answer with
      | error e => exact fine_failed fun _ => rfl
      | ok u =>
        refine fine_consume ?_ rfl Iff.rfl h
        rw [step_answer rfl]
        rfl

theorem step_fine (h : Inv c s) (event : Event) : Fine c s event := by
  cases event with
  | close => exact fine_close h
  | fire i => exact fine_fire h i
  | answer i answer => exact fine_answer h i answer

end Steps

def clientAfter (c : Config) (run : List Event) : Client := run.foldl (step c) connected

theorem clientAfter_concat (c : Config) (run : List Event) (event : Event) :
    clientAfter c (run ++ [event]) = step c (clientAfter c run) event := by
  simp [clientAfter]

theorem clientAfter_inv (c : Config) (run : List Event) : Inv c (clientAfter c run) := by
  induction run using List.reverseRecOn with
  | nil => exact connected_inv
  | append_singleton run event ih =>
    rw [clientAfter_concat]
    exact (step_fine ih event).inv

/-- Reconnection is never abandoned in a run if and only if every event of it is lasting. -/
theorem kept_iff (c : Config) (run : List Event) :
    (∀ history, history <+: run → Kept (clientAfter c history)) ↔
      ∀ before event rest, run = before ++ event :: rest →
        Lasting (clientAfter c before) event := by
  constructor
  · rintro h before event rest rfl
    have hbefore := h before (List.prefix_append _ _)
    have hafter := h (before ++ [event]) ⟨rest, by simp⟩
    rw [clientAfter_concat] at hafter
    exact ((step_fine (clientAfter_inv c before) event).kept hbefore).mp hafter
  · rintro h history ⟨rest, rfl⟩
    induction history using List.reverseRecOn generalizing rest with
    | nil => exact connected_kept
    | append_singleton history event ih =>
      have hbefore := ih (event :: rest) (by simpa using h)
      have hlasting := h history event rest (by simp)
      rw [clientAfter_concat]
      exact ((step_fine (clientAfter_inv c history) event).kept hbefore).mpr hlasting

/-- The connection closes, and the broker is still away when the timeout fires. -/
def brokerAway : List Event :=
  [.close, .fire 0, .answer 0 (.error (.failure "connect ECONNREFUSED"))]

/-- After one failed attempt a client does not try again. -/
theorem brokerAway_lost (c : Config) :
    clientAfter c brokerAway = ⟨.closed, 1, false, [], [], 1⟩ ∧
      ¬ Kept (clientAfter c brokerAway) := by
  have hafter : clientAfter c brokerAway = ⟨.closed, 1, false, [], [], 1⟩ := by
    have hfire : clientAfter c [.close, .fire 0] =
        ⟨.closed, 1, true, [], [attempting (Phase.connecting (c := c)).rest], 0⟩ := by
      rw [show [Event.close, .fire 0] = [.close] ++ [.fire 0] from rfl, clientAfter_concat]
      exact advance_connecting c _
    rw [brokerAway, show [Event.close, .fire 0, .answer 0 (.error _)] =
      [.close, .fire 0] ++ [.answer 0 (.error _)] from rfl, clientAfter_concat, hfire,
      step_answer rfl]
    rfl
  refine ⟨hafter, fun hkept => ?_⟩
  rw [hafter, kept_at_rest] at hkept
  exact absurd (hkept rfl) (by decide)

theorem one_attempt :
    ¬ Kept (clientAfter (chatService (js "amqp://rabbitmq") (by decide) (js "NOTIFICATIONS"))
        brokerAway) ∧
      ¬ Kept (clientAfter (userService (js "amqp://rabbitmq") (by decide) (js "NOTIFICATIONS"))
        brokerAway) ∧
      ¬ Kept (clientAfter
        (notificationService (js "amqp://rabbitmq") (by decide) (js "NOTIFICATIONS"))
        brokerAway) :=
  ⟨(brokerAway_lost _).2, (brokerAway_lost _).2, (brokerAway_lost _).2⟩

end ChatMicroservices.BrokerReconnection

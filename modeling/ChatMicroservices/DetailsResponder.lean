import ChatMicroservices.EffectPrograms
import ChatMicroservices.JsonParsing
import ChatMicroservices.JsonSerialisation

/-!
# The responder for user details

`listenForRequests` of the user service answers each request on `this.channel`, which it reads
again after the row has been looked up. By then the connection may have been lost and replaced.
The reply, the reply of the `catch` block and the acknowledgement follow without a pause.
-/

namespace ChatMicroservices.DetailsResponder
open JavaScriptValues EffectPrograms

/-- The columns that the lookup selects; the timestamps as `toISOString` writes them. -/
structure UserDetails where
  id : JsString
  username : JsString
  email : JsString
  createdAt : JsString
  updatedAt : JsString

def UserDetails.json (u : UserDetails) : Json :=
  .obj [(js "id", .str u.id), (js "username", .str u.username), (js "email", .str u.email),
    (js "createdAt", .str u.createdAt), (js "updatedAt", .str u.updatedAt)]

inductive Op where
  | findOne (id : Value)
  | sendToQueue (queue : Option JsString) (content : JsString) (correlationId : Option JsString)
  | ack

@[reducible] def Ans : Op → Type
  | .findOne _ => Except JsError (Option UserDetails)
  | .sendToQueue _ _ _ | .ack => Except JsError Unit

abbrev Handler (α : Type) := Program Ans JsError α

def perform (op : Op) : Handler (Ans op) := Program.call op

/-- A message of the queue `USER_DETAILS_REQUEST`: its text and its properties. -/
structure Delivery where
  content : JsString
  replyTo : Option JsString
  correlationId : Option JsString

def invalidFormat : Json := .obj [(js "error", .str (js "Invalid message format"))]

/-- `this.channel.sendToQueue(msg.properties.replyTo, …)` -/
def reply (msg : Delivery) (body : Json) : Handler Unit :=
  Program.attempt (perform (.sendToQueue msg.replyTo (JSON.stringify body) msg.correlationId))

/-- The callback that `listenForRequests` gives to `consume`. -/
def onRequest (msg : Delivery) : Handler Unit :=
  Program.tryFinally
    (Program.tryCatch (do
      let request ← .done (JSON.parse msg.content)
      let userId ← .done ((Value.json request).destructure "JSON.parse(...)" "userId")
      let userDetails ← Program.attempt (perform (.findOne userId))
      reply msg ((userDetails.map UserDetails.json).getD .null))
      fun _ => reply msg invalidFormat)
    (Program.attempt (perform .ack))

/-- The channel that `this.channel` is, and the channels that are open. -/
structure Link where
  channel : ℕ
  isOpen : ℕ → Bool

/-- The channel that delivered the message, what the lookup answers, and the client when the
message arrives and when the lookup has been answered. -/
structure Surroundings where
  delivering : ℕ
  findOne : Value → Except JsError (Option UserDetails)
  start : Link
  finish : Link

structure Sent where
  channel : ℕ
  queue : JsString
  content : JsString
  correlationId : Option JsString

/-- The client, the replies that were sent, and the channels on which the message was
acknowledged. -/
structure World where
  link : Link
  sent : List Sent
  acks : List ℕ

def channelClosed : JsError := .failure "Channel closed"

/-- The name of a queue has to be a string. -/
def invalidQueue : JsError :=
  .typeError "Field 'routingKey' is the wrong type; must be a string (up to 255 chars)"

def exec (here : Surroundings) : (op : Op) → World → Ans op × World
  | .findOne id, w => (here.findOne id, { w with link := here.finish })
  | .sendToQueue queue content correlationId, w =>
    if w.link.isOpen w.link.channel then
      match queue with
      | none => (.error invalidQueue, w)
      | some q =>
        (.ok (), { w with sent := w.sent ++ [⟨w.link.channel, q, content, correlationId⟩] })
    else (.error channelClosed, w)
  | .ack, w =>
    if w.link.isOpen w.link.channel then (.ok (), { w with acks := w.acks ++ [w.link.channel] })
    else (.error channelClosed, w)

def handle (msg : Delivery) (here : Surroundings) : Except JsError Unit × World :=
  (onRequest msg).run (exec here) ⟨here.start, [], []⟩

section Request

variable (msg : Delivery) (here : Surroundings)

/-- The client when the reply is sent: a request that does not parse is not looked up. -/
def replyLink : Link :=
  match JSON.parse msg.content with
  | .error _ | .ok .null => here.start
  | .ok _ => here.finish

/-- The body of the reply, if it can be sent. -/
def answer : Json :=
  match JSON.parse msg.content with
  | .error _ | .ok .null => invalidFormat
  | .ok request =>
    match here.findOne ((Value.json request).field "userId") with
    | .error _ => invalidFormat
    | .ok row => (row.map UserDetails.json).getD .null

/-- What is left when the handler has come to its end on one channel. -/
def settled (l : Link) (body : Json) : Except JsError Unit × World :=
  if l.isOpen l.channel then
    match msg.replyTo with
    | none => (.error invalidQueue, ⟨l, [], [l.channel]⟩)
    | some q =>
      (.ok (), ⟨l, [⟨l.channel, q, JSON.stringify body, msg.correlationId⟩], [l.channel]⟩)
  else (.error channelClosed, ⟨l, [], []⟩)

/-- The reply of the `catch` block, and the acknowledgement. -/
theorem caught_settled (l : Link) :
    (Program.tryFinally (reply msg invalidFormat) (Program.attempt (perform .ack))).run (exec here)
      ⟨l, [], []⟩ = settled msg l invalidFormat := by
  by_cases hopen : l.isOpen l.channel = true
  · cases hreply : msg.replyTo <;>
      simp [reply, perform, Program.call, Program.attempt, Program.tryFinally, exec, settled, hopen,
        hreply]
  · simp [reply, perform, Program.call, Program.attempt, Program.tryFinally, exec, settled, hopen]

/-- When the reply fails, that of the `catch` block fails as well. -/
theorem replied_settled (l : Link) (body : Json) :
    (Program.tryFinally (Program.tryCatch (reply msg body) fun _ => reply msg invalidFormat)
      (Program.attempt (perform .ack))).run (exec here) ⟨l, [], []⟩ = settled msg l body := by
  by_cases hopen : l.isOpen l.channel = true
  · cases hreply : msg.replyTo <;>
      simp [reply, perform, Program.call, Program.attempt, Program.tryFinally, exec, settled, hopen,
        hreply]
  · simp [reply, perform, Program.call, Program.attempt, Program.tryFinally, exec, settled, hopen]

theorem handle_eq : handle msg here = settled msg (replyLink msg here) (answer msg here) := by
  cases hparse : JSON.parse msg.content with
  | error e =>
    rw [replyLink, answer, hparse, ← caught_settled msg here]
    simp [handle, onRequest, hparse]
  | ok request =>
    by_cases hnull : (Value.json request).Nullish
    · obtain rfl : request = .null := by
        cases request <;> first | rfl | exact hnull.elim
      have hget := Value.destructure_of_nullish hnull "JSON.parse(...)" "userId"
      rw [replyLink, answer, hparse, ← caught_settled msg here]
      simp [handle, onRequest, hparse, hget]
    · have hget := Value.destructure_of_not_nullish hnull "JSON.parse(...)" "userId"
      have hlink : replyLink msg here = here.finish := by
        rw [replyLink, hparse]
        cases request <;> first | rfl | exact absurd trivial hnull
      cases hrow : here.findOne ((Value.json request).field "userId") with
      | error e =>
        have hanswer : answer msg here = invalidFormat := by
          rw [answer, hparse]
          cases request <;> simp [hrow]
        rw [hlink, hanswer, ← caught_settled msg here]
        simp [handle, onRequest, hparse, hget, perform, Program.call, Program.attempt,
          Program.tryFinally, exec, hrow]
      | ok row =>
        have hanswer : answer msg here = (row.map UserDetails.json).getD .null := by
          rw [answer, hparse]
          cases request <;> first | exact absurd trivial hnull | simp [hrow]
        rw [hlink, hanswer, ← replied_settled msg here]
        simp [handle, onRequest, hparse, hget, perform, Program.call, Program.attempt,
          Program.tryFinally, exec, hrow]

end Request

/-- The message is acknowledged at most once, and on its own channel; the promise of the
callback does not reject; if the channel stays open and there is a `replyTo`, one reply with the
correlation id is sent to it and the message is acknowledged. -/
structure Survives (msg : Delivery) (here : Surroundings) : Prop where
  once : (handle msg here).2.acks.length ≤ 1
  own : ∀ channel ∈ (handle msg here).2.acks, channel = here.delivering
  resolves : (handle msg here).1 = .ok ()
  replies : here.start.isOpen here.delivering → here.finish.isOpen here.delivering →
    ∀ queue, msg.replyTo = some queue →
      (∃ channel content, (handle msg here).2.sent =
        [⟨channel, queue, content, msg.correlationId⟩]) ∧
      (handle msg here).2.acks = [here.delivering]

/-- The responder survives exactly those requests that have a `replyTo` and at whose reply the
client still has the channel that delivered them, and it is open. -/
theorem survives_iff (msg : Delivery) (here : Surroundings) :
    Survives msg here ↔ msg.replyTo ≠ none ∧
      (replyLink msg here).channel = here.delivering ∧
      (replyLink msg here).isOpen here.delivering = true := by
  have hrun := handle_eq msg here
  constructor
  · intro h
    by_cases hopen : (replyLink msg here).isOpen (replyLink msg here).channel = true
    · cases hreply : msg.replyTo with
      | none =>
        have hthrows : (handle msg here).1 = .error invalidQueue := by
          rw [hrun, settled, if_pos hopen, hreply]
        cases hthrows.symm.trans h.resolves
      | some queue =>
        have hacks : (handle msg here).2.acks = [(replyLink msg here).channel] := by
          rw [hrun, settled, if_pos hopen, hreply]
        have hown := h.own _ (hacks ▸ List.mem_singleton_self _)
        exact ⟨nofun, hown, hown ▸ hopen⟩
    · have hthrows : (handle msg here).1 = .error channelClosed := by
        rw [hrun, settled, if_neg hopen]
      cases hthrows.symm.trans h.resolves
  · rintro ⟨hreply, hown, hopen⟩
    obtain ⟨queue, hqueue⟩ := Option.ne_none_iff_exists'.mp hreply
    rw [settled, hown, if_pos hopen, hqueue] at hrun
    refine ⟨?_, fun channel hchannel => ?_, ?_, fun _ _ other hother => ⟨?_, ?_⟩⟩
    · rw [hrun]
      exact Nat.le_refl 1
    · rw [hrun] at hchannel
      exact List.mem_singleton.mp hchannel
    · rw [hrun]
    · obtain rfl := Option.some.inj (hqueue.symm.trans hother)
      exact ⟨_, _, by rw [hrun]⟩
    · rw [hrun]

/-- A request without `replyTo`, on a channel that stays open. -/
def withoutReplyTo : Delivery × Surroundings :=
  (⟨js "\x7b\"userId\":\"u1\"\x7d", none, some (js "c1")⟩,
    ⟨0, fun _ => .ok none, ⟨0, fun _ => true⟩, ⟨0, fun _ => true⟩⟩)

/-- A request whose connection is lost and replaced while the row is looked up. -/
def reconnected : Delivery × Surroundings :=
  (⟨js "\x7b\"userId\":\"u1\"\x7d", some (js "USER_DETAILS_RESPONSE"), some (js "c1")⟩,
    ⟨0, fun _ => .ok none, ⟨0, fun channel => channel = 0⟩, ⟨1, fun channel => channel = 1⟩⟩)

/-- The first one rejects the promise, and the second one is acknowledged on the new channel. -/
theorem requests_not_survived :
    (handle withoutReplyTo.1 withoutReplyTo.2).1 = .error invalidQueue ∧
      (handle reconnected.1 reconnected.2).2.acks = [1] ∧
      (¬ ∀ msg here, here.start.channel = here.delivering →
        here.start.isOpen here.delivering = true → Survives msg here) := by
  have hthrows : (handle withoutReplyTo.1 withoutReplyTo.2).1 = .error invalidQueue := by
    decide +kernel
  refine ⟨hthrows, by decide +kernel, fun h => ?_⟩
  cases hthrows.symm.trans (h withoutReplyTo.1 withoutReplyTo.2 rfl rfl).resolves

end ChatMicroservices.DetailsResponder

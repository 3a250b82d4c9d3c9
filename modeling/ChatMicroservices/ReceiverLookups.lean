import ChatMicroservices.CorrelationMap
import ChatMicroservices.DetailsResponder
import ChatMicroservices.JsonLines
import ChatMicroservices.NotificationPrivacy
import ChatMicroservices.OpenPools
import ChatMicroservices.ReplyRouting
import ChatMicroservices.UsersTable

/-!
# Looking up the receivers of messages

Any number of nodes handle messages at once. For each one whose receiver is offline, the node
asks the user service for the receiver over the broker, waits for a reply or a timeout, and
publishes a notification. The replies to all nodes wait in one queue, from which the broker may
hand any of them to any node.
-/

namespace ChatMicroservices.ReceiverLookups
open JavaScriptValues EffectPrograms ConcurrentPrograms OpenPools ChatEffects MessageNotification
open CorrelationMap (Callbacks Client Tracks)
open DetailsResponder (Delivery Link UserDetails)
open NotificationPrivacy (member)
open ReplyRouting (nodeUuid)
open UsersTable (Table User)
open JSON (carried)

/-- How Postgres reads an id, and how a time is written. -/
structure Formats where
  asUuid : Value → Except JsError JsString
  toISOString : ℕ → JsString

section Lookup

variable (formats : Formats)

def details (u : User) : UserDetails where
  id := u.id
  username := u.username
  email := u.email
  createdAt := formats.toISOString u.createdAt
  updatedAt := formats.toISOString u.updatedAt

/-- `userRepo.findOne({ where: { id: userId }, … })`. A condition without a value is left out, so
that whichever row comes first is found. -/
def findOne (rows : List User) (first : ℕ) (userId : Value) : Except JsError (Option User) :=
  if userId.Nullish then .ok rows[first]?
  else (formats.asUuid userId).map fun id => rows.find? fun u => u.id = id

/-- What an instance of the user service meets: how many rows are there when it reads the table,
and how its connection fares meanwhile. -/
structure Service where
  failure : Option JsError
  rows : ℕ
  first : ℕ
  delivering : ℕ
  start : Link
  finish : Link

def Service.surroundings (c : Service) (users : Table) : DetailsResponder.Surroundings where
  delivering := c.delivering
  findOne userId :=
    match c.failure with
    | some e => .error e
    | none =>
      (findOne formats (users.rows.take c.rows) c.first userId).map fun row =>
        row.map (details formats)
  start := c.start
  finish := c.finish

end Lookup

def responseQueue : JsString := js "USER_DETAILS_RESPONSE"

/-- `JSON.stringify({ userId })` -/
def requestText (userId : Value) : JsString := JSON.stringify (.obj (member "userId" userId))

structure Response where
  correlationId : Option JsString
  content : JsString

/-- The users; the correlation maps of the nodes, and the number of the call that looks up the
receiver of a message; what waits in the two queues of the lookups; the notifications that the
broker has accepted, the messages whose notification it has refused, and those whose receiver
was online. -/
structure World (ι Node : Type) where
  users : Table
  clients : Node → Client
  calls : ι → Option ℕ
  requests : List Delivery
  responses : List Response
  published : List (ι × NotificationPayload)
  refused : List ι
  online : List ι

/-- The callback of a lookup resolves a promise. -/
def resolve : Callbacks := fun _ _ _ => ⟨0, .ok ()⟩

/-- What an effect meets besides the world. -/
structure Conditions where
  isOnline : Bool
  request : Channel
  notifications : Channel

/-- An instance of the user service handles a request, which stays in the queue until it is
acknowledged; the broker hands a response to a node; the timeout of a call fires; the broker
loses a message; somebody registers. -/
inductive Event (Node : Type) where
  | serve (request : ℕ) (c : Service)
  | deliver (response : ℕ) (node : Node)
  | timeout (node : Node) (call : ℕ)
  | loseRequest (request : ℕ)
  | loseResponse (response : ℕ)
  | register (row : User)

section System

variable {ι Node : Type} [DecidableEq ι] [DecidableEq Node] (formats : Formats)
  (uuid : Node × ℕ ↪ JsString) (node : ι → Node)

namespace World

/-- The value that the promise of a lookup has been resolved with. -/
def answer (w : World ι Node) (i : ι) : Option Value :=
  (w.calls i).bind fun call => (w.clients (node i)).invocations.lookup call

/-- `getUserDetails` registers the callback of message `i`. -/
def call (w : World ι Node) (i : ι) : World ι Node :=
  { w with
    clients := Function.update w.clients (node i)
      (CorrelationMap.getUserDetails (nodeUuid uuid (node i)) (w.clients (node i)))
    calls := Function.update w.calls i (some (w.clients (node i)).calls) }

def request (w : World ι Node) (correlationId : JsString) (userId : Value) : World ι Node :=
  { w with
    requests := w.requests ++ [⟨requestText userId, some responseQueue, some correlationId⟩] }

def accept (w : World ι Node) (i : ι) (payload : NotificationPayload) : World ι Node :=
  { w with published := w.published ++ [(i, payload)] }

def refuse (w : World ι Node) (i : ι) : World ι Node := { w with refused := w.refused ++ [i] }

def skip (w : World ι Node) (i : ι) : World ι Node := { w with online := w.online ++ [i] }

/-- The notifications that the broker has accepted for message `i`. -/
def publishedBy (w : World ι Node) (i : ι) : List NotificationPayload :=
  (w.published.filter fun entry => entry.1 = i).map Prod.snd

def setClient (w : World ι Node) (n : Node) (s : Client) : World ι Node :=
  { w with clients := Function.update w.clients n s }

end World

/-- The effects of `handleMessageReceived`. The await of a promise goes on once its callback has
been called. -/
def exec : Semantics ι Conditions (World ι Node) Ans := fun i c op w =>
  match op with
  | .isOnline _ => some (c.isOnline, if c.isOnline then w.skip i else w)
  | .registerCallback => some (uuid (node i, (w.clients (node i)).calls), w.call uuid node i)
  | .sendRequest correlationId userId =>
    match c.request.sendToQueue with
    | .ok () => some (.ok (), w.request correlationId userId)
    | .error e => some (.error e, w)
  | .unhandledRejection _ => some ((), w)
  | .awaitCallback => (w.answer node i).map fun v => (v, w)
  | .publish payload =>
    match c.notifications.sendToQueue with
    | .ok () => some (.ok (), w.accept i payload)
    | .error e => some (.error e, w.refuse i)
  | _ => none

/-- Events that name nothing that is there change nothing. -/
def step (w : World ι Node) : Event Node → World ι Node
  | .serve k c =>
    match w.requests[k]? with
    | none => w
    | some msg =>
      let out := (DetailsResponder.handle msg (c.surroundings formats w.users)).2
      { w with
        requests := if out.acks = [c.delivering] then w.requests.eraseIdx k else w.requests
        responses := w.responses ++ (out.sent.filter fun s => s.queue = responseQueue).map fun s =>
          ⟨s.correlationId, s.content⟩ }
  | .deliver k n =>
    match w.responses[k]? with
    | none => w
    | some r =>
      { w with responses := w.responses.eraseIdx k }.setClient n
        (CorrelationMap.onMessage (nodeUuid uuid n) resolve r.correlationId r.content (w.clients n))
  | .timeout n call =>
    w.setClient n (CorrelationMap.step (nodeUuid uuid n) resolve (w.clients n) (.timeout call))
  | .loseRequest k => { w with requests := w.requests.eraseIdx k }
  | .loseResponse k => { w with responses := w.responses.eraseIdx k }
  | .register row => { w with users := (w.users.insert row).getD w.users }

def Moves (w w' : World ι Node) : Prop := ∃ event, w' = step formats uuid w event

def start (users : Table) : World ι Node where
  users := users
  clients _ := CorrelationMap.fresh
  calls _ := none
  requests := []
  responses := []
  published := []
  refused := []
  online := []

/-- Messages that are yet to be handled. -/
def messages (users : Table) (args : ι → IncomingMessageNotification) :
    Pool ι Ans JsError Unit (World ι Node) :=
  ⟨start users, fun i => handleMessageReceived (args i)⟩

end System

/-- The members of an object literal that are written. -/
def written (fields : List (String × Value)) : List (JsString × Json) :=
  fields.flatMap fun f => member f.1 f.2

theorem mem_member {key : JsString} {name : String} {x : Json} {v : Value} :
    (key, x) ∈ member name v ↔ key = js name ∧ v = .json x := by
  cases v with
  | json y => simp [member, eq_comm]
  | undefined | function => simp [member]

/-- An object literal is read back field by field; what is not written is `undefined`. -/
theorem written_parses {fields : List (String × Value)}
    (hkeys : (fields.map fun f => js f.1).Nodup) : ∃ object,
    JSON.parse (JSON.stringify (.obj (written fields))) = .ok (.obj object) ∧
      ∀ f ∈ fields, (Value.json (.obj object)).field f.1 = carried f.2 := by
  obtain ⟨read, hread⟩ := JSON.members_partners (written fields)
  refine ⟨_, (JSON.reads_object hread).parse, fun f hf => ?_⟩
  have hvalue : ∀ {x}, (js f.1, x) ∈ written fields → f.2 = .json x := by
    intro x hx
    obtain ⟨other, hother, hmem⟩ := List.mem_flatMap.mp hx
    obtain ⟨hkey, hjson⟩ := mem_member.mp hmem
    rw [List.inj_on_of_nodup_map hkeys hf hother hkey, hjson]
  have hpartner : ∀ {y}, (js f.1, y) ∈ read → ∃ x, f.2 = .json x ∧
      JSON.Reads (JSON.stringify x) y := by
    intro y hy
    obtain ⟨x, hx, hreads⟩ := JSON.partner_of_read hread hy
    exact ⟨x, hvalue hx, hreads⟩
  have hmissing : (∀ x, f.2 ≠ .json x) →
      lookup (js f.1) (JSON.assignAll read []) = none := by
    intro hnone
    refine JSON.lookup_assignAll_of_not_mem (fun y hy => ?_) []
    obtain ⟨x, hx, -⟩ := hpartner hy
    exact hnone x hx
  cases hf2 : f.2 with
  | json x =>
    have hx : (js f.1, x) ∈ written fields :=
      List.mem_flatMap.mpr ⟨f, hf, mem_member.mpr ⟨rfl, hf2⟩⟩
    obtain ⟨y, hy, hreads⟩ := JSON.partner_of_mem hread hx
    have honly : ∀ z, (js f.1, z) ∈ read → z = y := by
      intro z hz
      obtain ⟨x', hx', hz'⟩ := hpartner hz
      obtain rfl : x = x' := Value.json.inj (hf2.symm.trans hx')
      exact hz'.unique hreads
    rw [Value.field, JSON.lookup_assignAll_of_mem hy honly, carried, hreads.parse]
    rfl
  | undefined =>
    rw [Value.field, hmissing fun x hx => by cases hf2.symm.trans hx]
    rfl
  | function =>
    rw [Value.field, hmissing fun x hx => by cases hf2.symm.trans hx]
    rfl

/-- What is known of a receiver: no address, or that of a user, who is the receiver if the request
says who that is. -/
def Contact (formats : Formats) (users : Table) (receiverId address : Value) : Prop :=
  address = .undefined ∨ ∃ u ∈ users.rows, address = .json (.str u.email) ∧
    (¬ (carried receiverId).Nullish → formats.asUuid (carried receiverId) = .ok u.id)

section Replies

variable {formats : Formats} {users : Table} {receiverId : Value}

theorem Contact.mono {address : Value} (h : Contact formats users receiverId address)
    {users' : Table} (hgrows : users.rows <+: users'.rows) :
    Contact formats users' receiverId address := by
  rcases h with hnone | ⟨u, hu, haddress⟩
  · exact .inl hnone
  · exact .inr ⟨u, hgrows.subset hu, haddress⟩

/-- A request is read as an object with the id of the receiver. -/
theorem requestText_parses (receiverId : Value) : ∃ request,
    JSON.parse (requestText receiverId) = .ok (.obj request) ∧
      (Value.json (.obj request)).field "userId" = carried receiverId := by
  have hkeys : ([("userId", receiverId)].map fun f => js f.1).Nodup := List.nodup_singleton _
  obtain ⟨request, hparse, hfields⟩ := written_parses hkeys
  exact ⟨request, by simpa [requestText, written] using hparse, hfields _ List.mem_cons_self⟩

theorem details_parses (u : UserDetails) :
    JSON.parse (JSON.stringify u.json) = .ok u.json := by
  have hstr : ∀ s, JSON.Reads (JSON.stringify (.str s)) (.str s) := JSON.reads_quote
  exact (JSON.reads_object (.cons ⟨rfl, hstr _⟩ (.cons ⟨rfl, hstr _⟩ (.cons ⟨rfl, hstr _⟩
    (.cons ⟨rfl, hstr _⟩ (.cons ⟨rfl, hstr _⟩ .nil)))))).parse

theorem findOne_row {rows : List User} {first : ℕ} {userId : Value} {u : User}
    (h : findOne formats rows first userId = .ok (some u)) :
    u ∈ rows ∧ (¬ userId.Nullish → formats.asUuid userId = .ok u.id) := by
  unfold findOne at h
  split at h
  next hnullish => exact ⟨List.mem_of_getElem? (Except.ok.inj h), fun hnot => absurd hnullish hnot⟩
  next =>
    cases hid : formats.asUuid userId with
    | error e =>
      rw [hid] at h
      cases h
    | ok id =>
      rw [hid] at h
      have hfind : rows.find? (fun u => decide (u.id = id)) = some u := Except.ok.inj h
      have hdecide := List.find?_some hfind
      have hu : u.id = id := by simpa using hdecide
      exact ⟨List.mem_of_find?_eq_some hfind, fun _ => congrArg _ hu.symm⟩

/-- Whatever happens to a request on the way, the reply to it is about its receiver. -/
theorem answer_contact {msg : Delivery} (hcontent : msg.content = requestText receiverId)
    (c : Service) : ∃ v, JSON.parse (JSON.stringify
        (DetailsResponder.answer msg (c.surroundings formats users))) = .ok v ∧
      Contact formats users receiverId ((Value.json v).field "email") := by
  have hinvalid : JSON.parse (JSON.stringify DetailsResponder.invalidFormat) =
      .ok DetailsResponder.invalidFormat := by
    have hmembers : JSON.ReadsMembers [(js "error", .str (js "Invalid message format"))]
        [(js "error", .str (js "Invalid message format"))] :=
      .cons ⟨rfl, JSON.reads_quote _⟩ .nil
    exact (JSON.reads_object hmembers).parse
  obtain ⟨request, hparse, huser⟩ := requestText_parses receiverId
  cases hfound : (c.surroundings formats users).findOne (carried receiverId) with
  | error e =>
    have hanswer : DetailsResponder.answer msg (c.surroundings formats users) =
        DetailsResponder.invalidFormat := by
      simp only [DetailsResponder.answer, hcontent, hparse, huser, hfound]
    rw [hanswer]
    exact ⟨_, hinvalid, .inl rfl⟩
  | ok row =>
    have hanswer : DetailsResponder.answer msg (c.surroundings formats users) =
        (row.map UserDetails.json).getD .null := by
      simp only [DetailsResponder.answer, hcontent, hparse, huser, hfound]
    rw [hanswer]
    cases row with
    | none => exact ⟨.null, JSON.reads_null.parse, .inl rfl⟩
    | some found =>
      refine ⟨found.json, details_parses found, .inr ?_⟩
      unfold Service.surroundings at hfound
      simp only at hfound
      split at hfound
      next => cases hfound
      next =>
        cases hrow : findOne formats (users.rows.take c.rows) c.first (carried receiverId) with
        | error e =>
          rw [hrow] at hfound
          cases hfound
        | ok row =>
          rw [hrow] at hfound
          obtain ⟨u, rfl, rfl⟩ := Option.map_eq_some_iff.mp (Except.ok.inj hfound)
          obtain ⟨hu, hid⟩ := findOne_row hrow
          exact ⟨u, List.mem_of_mem_take hu, rfl, hid⟩

/-- What an instance of the user service sends for a request. -/
theorem handle_sent {msg : Delivery} (hcontent : msg.content = requestText receiverId)
    (c : Service) {s : DetailsResponder.Sent}
    (hs : s ∈ (DetailsResponder.handle msg (c.surroundings formats users)).2.sent) :
    s.correlationId = msg.correlationId ∧ ∃ v, JSON.parse s.content = .ok v ∧
      Contact formats users receiverId ((Value.json v).field "email") := by
  rw [DetailsResponder.handle_eq, DetailsResponder.settled] at hs
  split at hs
  · split at hs
    · cases hs
    · obtain rfl := List.mem_singleton.mp hs
      exact ⟨rfl, answer_contact hcontent c⟩
  · cases hs

end Replies

/-- The client may have answered one call, which is no longer in the map. -/
structure Settles (uuid : ℕ ↪ JsString) (answered : Option (ℕ × Value)) (s s' : Client) :
    Prop where
  tracks : Tracks uuid none s'
  calls : s'.calls = s.calls
  invocations : s'.invocations = s.invocations ++ answered.toList
  kept : ∀ id entry, s.correlationMap.get id = some entry →
    s'.correlationMap.get id = some entry ∨ ∃ call v, id = uuid call ∧ answered = some (call, v)

section Clients

variable {uuid : ℕ ↪ JsString} {s : Client}

theorem Settles.refl (h : Tracks uuid none s) : Settles uuid none s s where
  tracks := h
  calls := rfl
  invocations := (List.append_nil _).symm
  kept _ _ hget := .inl hget

theorem get_delete_of_ne {id other : JsString} (h : other ≠ id) (s : Client) :
    (s.correlationMap.delete id).get other = s.correlationMap.get other := by
  rw [InsertionMaps.InsertionMap.get_delete, if_neg h]

/-- The response to a call that waits resolves its promise. -/
theorem onMessage_waiting {id content : JsString} {user : Json} {entry : CorrelationMap.Entry}
    (hparse : JSON.parse content = .ok user) (hget : s.correlationMap.get id = some entry) :
    CorrelationMap.onMessage uuid resolve (some id) content s =
      { s with
        correlationMap := s.correlationMap.delete id
        timers := s.timers.erase entry.timer
        invocations := s.invocations ++ [(entry.callback, .json user)] } := by
  unfold CorrelationMap.onMessage
  rw [hparse]
  dsimp only
  rw [hget]
  rfl

/-- A response answers the call whose correlation id it has, if that one is still waiting. -/
theorem settles_onMessage (h : Tracks uuid none s) (id : Option JsString) (content : JsString) :
    ∃ answered, Settles uuid answered s
        (CorrelationMap.onMessage uuid resolve id content s) ∧
      ∀ call v, answered = some (call, v) → id = some (uuid call) ∧ call < s.calls ∧
        ∃ user, JSON.parse content = .ok user ∧ v = .json user := by
  have htracks : Tracks uuid none (CorrelationMap.onMessage uuid resolve id content s) := by
    refine h.message ?_
    cases id with
    | none => trivial
    | some id => exact fun _ _ _ _ => rfl
  cases hparse : JSON.parse content with
  | error e =>
    simp only [CorrelationMap.onMessage, hparse]
    exact ⟨none, .refl h, fun _ _ hnone => by cases hnone⟩
  | ok user =>
    cases id with
    | none =>
      simp only [CorrelationMap.onMessage, hparse]
      exact ⟨none, .refl h, fun _ _ hnone => by cases hnone⟩
    | some id =>
      cases hget : s.correlationMap.get id with
      | none =>
        simp only [CorrelationMap.onMessage, hparse, hget]
        exact ⟨none, .refl h, fun _ _ hnone => by cases hnone⟩
      | some entry =>
        obtain ⟨rfl, -, hlt⟩ := h.named id entry hget
        refine ⟨some (entry.callback, .json user), ⟨htracks, ?_, ?_, fun other entry' hother => ?_⟩,
          fun call v hcall => ?_⟩
        · rw [onMessage_waiting hparse hget]
        · rw [onMessage_waiting hparse hget]
          rfl
        · by_cases hid : other = uuid entry.callback
          · exact .inr ⟨_, _, hid, rfl⟩
          · left
            rw [onMessage_waiting hparse hget]
            exact (get_delete_of_ne hid s).trans hother
        · obtain ⟨rfl, rfl⟩ := Prod.mk.inj (Option.some.inj hcall)
          exact ⟨rfl, hlt, user, rfl, rfl⟩

/-- A timeout answers its call, if that one is still waiting. -/
theorem settles_timeout (h : Tracks uuid none s) (call : ℕ) :
    ∃ answered, Settles uuid answered s (CorrelationMap.step uuid resolve s (.timeout call)) ∧
      (∀ other v, answered = some (other, v) → other = call ∧ call < s.calls ∧ v = .json .null) ∧
      (call ∈ s.timers → s.correlationMap.get (uuid call) ≠ none →
        answered = some (call, .json .null)) := by
  have htracks : Tracks uuid none (CorrelationMap.step uuid resolve s (.timeout call)) :=
    h.step trivial
  by_cases harmed : call ∈ s.timers
  · have hstep : CorrelationMap.step uuid resolve s (.timeout call) =
        CorrelationMap.onTimeout uuid resolve call { s with timers := s.timers.erase call } :=
      if_pos harmed
    rw [hstep] at htracks ⊢
    cases hget : s.correlationMap.get (uuid call) with
    | none =>
      refine ⟨none, ⟨htracks, ?_, ?_, fun id entry hentry => .inl ?_⟩,
        (fun _ _ hnone => by cases hnone), fun _ hne => absurd rfl hne⟩
      · simp only [CorrelationMap.onTimeout, hget]
      · simp only [CorrelationMap.onTimeout, hget]
        exact (List.append_nil _).symm
      · simp only [CorrelationMap.onTimeout, hget]
        exact hentry
    | some entry =>
      obtain ⟨hid, -, hlt⟩ := h.named _ entry hget
      obtain rfl := uuid.injective hid
      refine ⟨some (entry.callback, .json .null), ⟨htracks, ?_, ?_, fun id entry' hentry => ?_⟩,
        fun other v hother => ?_, fun _ _ => rfl⟩
      · simp only [CorrelationMap.onTimeout, hget, CorrelationMap.invoke, resolve]
        rfl
      · simp only [CorrelationMap.onTimeout, hget, CorrelationMap.invoke, resolve]
        rfl
      · by_cases heq : id = uuid entry.callback
        · exact .inr ⟨_, _, heq, rfl⟩
        · left
          simp only [CorrelationMap.onTimeout, hget, CorrelationMap.invoke, resolve]
          exact (get_delete_of_ne heq s).trans hentry
      · obtain ⟨rfl, rfl⟩ := Prod.mk.inj (Option.some.inj hother)
        exact ⟨rfl, hlt, rfl⟩
  · have hstep : CorrelationMap.step uuid resolve s (.timeout call) = s := if_neg harmed
    rw [hstep]
    exact ⟨none, .refl h, (fun _ _ hnone => by cases hnone), fun hmem => absurd hmem harmed⟩

end Clients

end ChatMicroservices.ReceiverLookups

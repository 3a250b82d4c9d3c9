import ChatMicroservices.CorrelationMap
import Mathlib.Data.List.Nodup
import Mathlib.Logic.Function.Basic

/-!
# Replies to many nodes

Every chat-service node puts its requests on one queue, and names one response queue for the
replies, from which all nodes consume without acknowledging. The broker hands a reply to some
node, and a node without the correlation id drops it.
-/

namespace ChatMicroservices.ReplyRouting
open JavaScriptValues CorrelationMap

/-- The text of the details of a user, as the user service replies it. -/
structure DetailsText where
  content : JsString
  user : Json
  parses : JSON.parse content = .ok user
  user_ne : user ≠ .null

structure Response where
  correlationId : JsString
  reply : DetailsText

/-- The nodes, the correlation ids of the requests that wait in their queue, and the responses
that wait in theirs. -/
structure World (Node : Type) where
  clients : Node → Client
  requests : List JsString
  responses : List Response

/-- A node calls `getUserDetails`, an instance of the user service consumes a request and
replies, the broker hands a response to a node, or the timeout of a call fires. -/
inductive Event (Node : Type) where
  | call (node : Node)
  | serve (request : ℕ) (reply : DetailsText)
  | deliver (response : ℕ) (node : Node)
  | timeout (node : Node) (call : ℕ)

section System

variable {Node : Type} [DecidableEq Node] (uuid : Node × ℕ ↪ JsString)
  (callbacks : Node → Callbacks)

/-- The correlation ids of one node. -/
def nodeUuid (node : Node) : ℕ ↪ JsString :=
  ⟨fun call => uuid (node, call), fun _ _ h => (Prod.mk.inj (uuid.injective h)).2⟩

namespace World

/-- A node moves on, and the calls that it has made in doing so send their requests. -/
def move (w : World Node) (node : Node) (s : Client) : World Node where
  clients := Function.update w.clients node s
  requests := w.requests ++
    (List.range' (w.clients node).calls (s.calls - (w.clients node).calls)).map (nodeUuid uuid node)
  responses := w.responses

/-- The correlation ids of the messages in both queues. -/
def ids (w : World Node) : List JsString := w.requests ++ w.responses.map Response.correlationId

end World

def fresh : World Node := ⟨fun _ => CorrelationMap.fresh, [], []⟩

/-- Events that name no message change nothing. -/
def step (w : World Node) : Event Node → World Node
  | .call node => w.move uuid node (getUserDetails (nodeUuid uuid node) (w.clients node))
  | .serve i reply =>
    match w.requests[i]? with
    | none => w
    | some id =>
      { w with requests := w.requests.eraseIdx i, responses := w.responses ++ [⟨id, reply⟩] }
  | .deliver i node =>
    match w.responses[i]? with
    | none => w
    | some r =>
      World.move uuid { w with responses := w.responses.eraseIdx i } node
        (onMessage (nodeUuid uuid node) (callbacks node) (some r.correlationId) r.reply.content
          (w.clients node))
  | .timeout node call =>
    w.move uuid node
      (CorrelationMap.step (nodeUuid uuid node) (callbacks node) (w.clients node) (.timeout call))

def worldAfter (run : List (Event Node)) : World Node := run.foldl (step uuid callbacks) fresh

@[simp] theorem worldAfter_concat (history : List (Event Node)) (event : Event Node) :
    worldAfter uuid callbacks (history ++ [event]) =
      step uuid callbacks (worldAfter uuid callbacks history) event := by
  simp [worldAfter]

end System

/-- The client has made some calls and settled at most one entry. -/
structure Advances (uuid : ℕ ↪ JsString) (settled : Option JsString) (s s' : Client) : Prop where
  le : s.calls ≤ s'.calls
  added : ∀ call, s.calls ≤ call → call < s'.calls → some (uuid call) ≠ settled →
    s'.correlationMap.get (uuid call) = some ⟨call, call⟩
  kept : ∀ id, some id ≠ settled → (∀ call, s.calls ≤ call → id ≠ uuid call) →
    s'.correlationMap.get id = s.correlationMap.get id
  named : ∀ id entry, s'.correlationMap.get id = some entry →
    s.correlationMap.get id = some entry ∨ ∃ call, id = uuid call
  timers : (∀ call ∈ s.timers, call < s.calls) → ∀ call ∈ s'.timers, call < s'.calls

section Clients

variable {uuid : ℕ ↪ JsString} {callbacks : Callbacks} {s s' s'' : Client}
  {settled : Option JsString}

theorem Advances.refl (s : Client) : Advances uuid settled s s where
  le := Nat.le_refl _
  added _ hle hlt _ := absurd hlt (Nat.not_lt.mpr hle)
  kept _ _ _ := rfl
  named _ _ h := .inl h
  timers h := h

theorem Advances.trans (h : Advances uuid none s s') (h' : Advances uuid none s' s'') :
    Advances uuid none s s'' where
  le := h.le.trans h'.le
  added call hle hlt hne := by
    by_cases hcall : call < s'.calls
    · rw [h'.kept _ hne fun other hother heq => ?_]
      · exact h.added call hle hcall hne
      · have hsame := uuid.injective heq
        omega
    · exact h'.added call (Nat.not_lt.mp hcall) hlt hne
  kept id hne hnew := by
    rw [h'.kept id hne fun call hcall => hnew call (h.le.trans hcall), h.kept id hne hnew]
  named id entry hget := by
    rcases h'.named id entry hget with hget | hcall
    · exact h.named id entry hget
    · exact .inr hcall
  timers hlt := h'.timers (h.timers hlt)

theorem advances_getUserDetails (s : Client) :
    Advances uuid none s (getUserDetails uuid s) where
  le := Nat.le_succ _
  added call hle hlt _ := by
    obtain rfl : call = s.calls := Nat.le_antisymm (Nat.le_of_lt_succ hlt) hle
    rw [get_getUserDetails, if_pos rfl]
  kept id _ hnew := by rw [get_getUserDetails, if_neg (hnew _ (Nat.le_refl _))]
  named id entry hget := by
    rw [get_getUserDetails] at hget
    split at hget
    · rename_i hid
      exact .inr ⟨_, hid⟩
    · exact .inl hget
  timers hlt call hcall := by
    rcases Finset.mem_insert.mp hcall with rfl | hcall
    · exact Nat.lt_succ_self _
    · exact Nat.lt_succ_of_lt (hlt call hcall)

theorem advances_iterate (s : Client) (n : ℕ) :
    Advances uuid none s ((getUserDetails uuid)^[n] s) := by
  induction n generalizing s with
  | zero => exact .refl s
  | succ n ih => exact (advances_getUserDetails s).trans (ih _)

theorem Advances.settle (h : Advances uuid none s s') (id : JsString) :
    Advances uuid (some id) s { s' with correlationMap := s'.correlationMap.delete id } where
  le := h.le
  added call hle hlt hne := by
    rw [InsertionMaps.InsertionMap.get_delete, if_neg fun heq => hne (congrArg some heq)]
    exact h.added call hle hlt nofun
  kept id' hne hnew := by
    rw [InsertionMaps.InsertionMap.get_delete, if_neg fun heq => hne (congrArg some heq)]
    exact h.kept id' nofun hnew
  named id' entry hget := by
    rw [InsertionMaps.InsertionMap.get_delete] at hget
    split at hget
    · cases hget
    · exact h.named id' entry hget
  timers := h.timers

theorem Advances.weaken (h : Advances uuid none s s') (settled : Option JsString) :
    Advances uuid settled s s' where
  le := h.le
  added call hle hlt _ := h.added call hle hlt nofun
  kept id _ hnew := h.kept id nofun hnew
  named := h.named
  timers := h.timers

/-- A callback that is called makes some calls. -/
theorem advances_invoke (s : Client) (erased callback : ℕ) (argument : Value) :
    Advances uuid none s (invoke uuid callbacks callback argument
      { s with timers := s.timers.erase erased }).2 := by
  let invoked : Client := { s with
    timers := s.timers.erase erased
    invocations := s.invocations ++ [(callback, argument)] }
  have h : Advances uuid none invoked ((getUserDetails uuid)^[(callbacks callback
      s.invocations.length argument).calls] invoked) := advances_iterate invoked _
  refine ⟨h.le, h.added, h.kept, h.named, fun hlt => h.timers fun call hcall => ?_⟩
  exact hlt call (Finset.mem_of_mem_erase hcall)

theorem advances_onMessage (s : Client) (id content : JsString) :
    Advances uuid (some id) s (onMessage uuid callbacks (some id) content s) := by
  cases hparse : JSON.parse content with
  | error e =>
    simp only [onMessage, hparse]
    exact .refl s
  | ok user =>
    cases hget : s.correlationMap.get id with
    | none =>
      simp only [onMessage, hparse, hget]
      exact .refl s
    | some entry =>
      have h : Advances uuid none s (invoke uuid callbacks entry.callback (.json user)
          { s with timers := s.timers.erase entry.timer }).2 := advances_invoke s _ _ _
      cases hresult : (callbacks entry.callback s.invocations.length (.json user)).result with
      | ok u =>
        simp only [onMessage, hparse, hget, invoke, hresult]
        exact h.settle id
      | error e =>
        simp only [onMessage, hparse, hget, invoke, hresult]
        exact h.weaken (some id)

theorem advances_timeout (s : Client) (call : ℕ) :
    Advances uuid (some (uuid call)) s (CorrelationMap.step uuid callbacks s (.timeout call)) := by
  rw [CorrelationMap.step]
  split
  · cases hget : s.correlationMap.get (uuid call) with
    | none =>
      simp only [onTimeout, hget]
      refine ⟨Nat.le_refl _, fun call hle hlt => absurd hlt (Nat.not_lt.mpr hle), fun _ _ _ => rfl,
        fun _ _ h => .inl h, fun hlt call hcall => hlt call (Finset.mem_of_mem_erase hcall)⟩
    | some entry =>
      simp only [onTimeout, hget]
      exact (advances_invoke s call entry.callback (.json .null)).settle (uuid call)
  · exact .refl s

/-- A parseable response to a pending call is what its callback is given. -/
theorem invocations_onMessage {id content : JsString} {user : Json} {entry : Entry}
    (hparse : JSON.parse content = .ok user) (hget : s.correlationMap.get id = some entry) :
    (onMessage uuid callbacks (some id) content s).invocations =
      s.invocations ++ [(entry.callback, .json user)] := by
  have hiterate : ∀ (n : ℕ) (t : Client),
      ((getUserDetails uuid)^[n] t).invocations = t.invocations := by
    intro n
    induction n with
    | zero => exact fun _ => rfl
    | succ n ih => exact fun t => ih (getUserDetails uuid t)
  cases hresult : (callbacks entry.callback s.invocations.length (.json user)).result with
  | ok u => simp only [onMessage, hparse, hget, invoke, hresult, hiterate]
  | error e => simp only [onMessage, hparse, hget, invoke, hresult, hiterate]

end Clients

section Worlds

variable {Node : Type} {uuid : Node × ℕ ↪ JsString} {w : World Node}

@[simp] theorem nodeUuid_apply (node : Node) (call : ℕ) :
    nodeUuid uuid node call = uuid (node, call) := rfl

/-- Every call has at most one message in the queues, and its node still has its entry. -/
structure Outstanding (uuid : Node × ℕ ↪ JsString) (w : World Node) : Prop where
  nodup : w.ids.Nodup
  present : ∀ id ∈ w.ids, ∃ node call, id = uuid (node, call) ∧ call < (w.clients node).calls ∧
    (w.clients node).correlationMap.get id = some ⟨call, call⟩
  named : ∀ node id entry, (w.clients node).correlationMap.get id = some entry →
    ∃ call, id = uuid (node, call)
  timers : ∀ node, ∀ call ∈ (w.clients node).timers, call < (w.clients node).calls

theorem fresh_outstanding : Outstanding uuid fresh where
  nodup := List.nodup_nil
  present := nofun
  named := nofun
  timers := nofun

/-- Messages may change queues, and be lost. -/
theorem Outstanding.subperm (h : Outstanding uuid w) {w' : World Node}
    (hclients : w'.clients = w.clients) (hids : w'.ids.Subperm w.ids) : Outstanding uuid w' where
  nodup := by
    obtain ⟨l, hperm, hsublist⟩ := hids
    exact hperm.nodup_iff.mp (h.nodup.sublist hsublist)
  present id hid := hclients ▸ h.present id (hids.subset hid)
  named := hclients ▸ h.named
  timers := hclients ▸ h.timers

/-- The calls of a node that are not made yet have no message. -/
theorem Outstanding.ne_uuid (h : Outstanding uuid w) {id : JsString} (hid : id ∈ w.ids)
    {node : Node} {call : ℕ} (hle : (w.clients node).calls ≤ call) : id ≠ uuid (node, call) := by
  obtain ⟨other, earlier, rfl, hlt, -⟩ := h.present id hid
  intro heq
  obtain ⟨rfl, rfl⟩ := Prod.mk.inj (uuid.injective heq)
  omega

/-- What the broker hands out, and the rest. -/
theorem ids_deliver {i : ℕ} {r : Response} (hi : w.responses[i]? = some r) :
    w.ids.Perm (r.correlationId ::
      ({ w with responses := w.responses.eraseIdx i } : World Node).ids) := by
  obtain ⟨hlt, rfl⟩ := List.getElem?_eq_some_iff.mp hi
  have hperm := (List.getElem_cons_eraseIdx_perm hlt).map Response.correlationId
  simp only [World.ids]
  exact (hperm.symm.append_left _).trans List.perm_middle

/-- The messages of the calls that a node makes when it moves on. -/
def newIds (uuid : Node × ℕ ↪ JsString) (w : World Node) (node : Node) (s : Client) :
    List JsString :=
  (List.range' (w.clients node).calls (s.calls - (w.clients node).calls)).map (nodeUuid uuid node)

theorem mem_newIds {node : Node} {s : Client} (hle : (w.clients node).calls ≤ s.calls)
    (id : JsString) : id ∈ newIds uuid w node s ↔
      ∃ call, (w.clients node).calls ≤ call ∧ call < s.calls ∧ uuid (node, call) = id := by
  simp only [newIds, List.mem_map, List.mem_range'_1, nodeUuid_apply]
  constructor
  · rintro ⟨call, ⟨hge, hlt⟩, hid⟩
    exact ⟨call, hge, by omega, hid⟩
  · rintro ⟨call, hge, hlt, hid⟩
    exact ⟨call, ⟨hge, by omega⟩, hid⟩

variable [DecidableEq Node] {callbacks : Node → Callbacks}

@[simp] theorem move_self (w : World Node) (node : Node) (s : Client) :
    (w.move uuid node s).clients node = s := Function.update_self ..

theorem move_other (w : World Node) {node other : Node} (h : other ≠ node) (s : Client) :
    (w.move uuid node s).clients other = w.clients other := Function.update_of_ne h ..

theorem ids_move (w : World Node) (node : Node) (s : Client) :
    (w.move uuid node s).ids.Perm (w.ids ++ newIds uuid w node s) := by
  simp only [World.ids, World.move, newIds, List.append_assoc]
  exact List.perm_append_comm.append_left _

/-- A node moves on, and settles no entry of a call that has a message in the queues. -/
theorem Outstanding.move (h : Outstanding uuid w) {node : Node} {s : Client}
    {settled : Option JsString} (hadv : Advances (nodeUuid uuid node) settled (w.clients node) s)
    (hids : ∀ id, some id = settled → id ∉ w.ids)
    (hissued : ∀ call, (w.clients node).calls ≤ call → some (uuid (node, call)) ≠ settled) :
    Outstanding uuid (w.move uuid node s) := by
  have hle := hadv.le
  refine ⟨?_, fun id hid => ?_, fun other id entry hget => ?_, fun other call hcall => ?_⟩
  · refine (ids_move w node s).nodup_iff.mpr
      (List.nodup_append'.mpr ⟨h.nodup, ?_, fun id hid hnewid => ?_⟩)
    · exact (List.nodup_range' ..).map (nodeUuid uuid node).injective
    · obtain ⟨call, hge, -, rfl⟩ := (mem_newIds hle id).mp hnewid
      exact h.ne_uuid hid hge rfl
  · rcases List.mem_append.mp ((ids_move w node s).mem_iff.mp hid) with hold | hnewid
    · obtain ⟨other, call, heq, hlt, hget⟩ := h.present id hold
      refine ⟨other, call, heq, ?_⟩
      by_cases hother : other = node
      · subst hother
        rw [move_self]
        refine ⟨by omega, ?_⟩
        rw [hadv.kept id (fun hsettled => hids id hsettled hold) fun later hge =>
          h.ne_uuid hold hge]
        exact hget
      · rw [move_other w hother]
        exact ⟨hlt, hget⟩
    · obtain ⟨call, hge, hlt, rfl⟩ := (mem_newIds hle id).mp hnewid
      refine ⟨node, call, rfl, ?_⟩
      rw [move_self]
      exact ⟨hlt, hadv.added call hge hlt (hissued call hge)⟩
  · by_cases hother : other = node
    · subst hother
      rw [move_self] at hget
      rcases hadv.named id entry hget with hget | hcall
      · exact h.named other id entry hget
      · exact hcall
    · rw [move_other w hother] at hget
      exact h.named other id entry hget
  · by_cases hother : other = node
    · subst hother
      rw [move_self] at hcall ⊢
      exact hadv.timers (h.timers other) call hcall
    · rw [move_other w hother] at hcall ⊢
      exact h.timers other call hcall

theorem Outstanding.serve (h : Outstanding uuid w) (i : ℕ) (reply : DetailsText) :
    Outstanding uuid (step uuid callbacks w (.serve i reply)) := by
  cases hi : w.requests[i]? with
  | none =>
    simp only [step, hi]
    exact h
  | some id =>
    obtain ⟨hlt, rfl⟩ := List.getElem?_eq_some_iff.mp hi
    simp only [step, hi]
    refine h.subperm rfl (List.Perm.subperm ?_)
    simp only [World.ids, List.map_append, List.map_cons, List.map_nil, ← List.append_assoc]
    have hcomm : ∀ l : List JsString, (l ++ [w.requests[i]]).Perm ([w.requests[i]] ++ l) :=
      fun l => List.perm_append_comm
    refine (hcomm _).trans ?_
    rw [← List.append_assoc]
    exact (List.getElem_cons_eraseIdx_perm hlt).append_right _

theorem Outstanding.deliver (h : Outstanding uuid w) (i : ℕ) (node : Node) :
    Outstanding uuid (step uuid callbacks w (.deliver i node)) := by
  cases hi : w.responses[i]? with
  | none =>
    simp only [step, hi]
    exact h
  | some r =>
    have hperm := ids_deliver hi
    have hnodup := (List.nodup_cons.mp (hperm.nodup_iff.mp h.nodup)).1
    have hrest : Outstanding uuid { w with responses := w.responses.eraseIdx i } :=
      h.subperm rfl ((List.sublist_cons_self _ _).subperm.trans hperm.symm.subperm)
    simp only [step, hi]
    refine hrest.move (advances_onMessage _ _ _) (fun id hid => ?_) fun call hge heq => ?_
    · obtain rfl := Option.some.inj hid
      exact hnodup
    · have hid : r.correlationId ∈ w.ids := hperm.symm.subset List.mem_cons_self
      exact h.ne_uuid hid hge (Option.some.inj heq).symm

theorem Outstanding.timeout (h : Outstanding uuid w) {node : Node} {call : ℕ}
    (hanswered : uuid (node, call) ∉ w.ids) :
    Outstanding uuid (step uuid callbacks w (.timeout node call)) := by
  by_cases hcall : call ∈ (w.clients node).timers
  · have hlt := h.timers node call hcall
    refine h.move (advances_timeout _ call) (fun id hid => ?_) fun later hge heq => ?_
    · obtain rfl := Option.some.inj hid
      exact hanswered
    · obtain ⟨-, rfl⟩ := Prod.mk.inj (uuid.injective (Option.some.inj heq))
      omega
  · have hstay : CorrelationMap.step (nodeUuid uuid node) (callbacks node) (w.clients node)
        (.timeout call) = w.clients node := by
      rw [CorrelationMap.step, if_neg hcall]
    rw [step, hstay]
    have hadv : Advances (nodeUuid uuid node) none (w.clients node) (w.clients node) := .refl _
    refine h.move hadv (fun id hid => ?_) fun _ _ => Option.some_ne_none _
    cases hid

theorem Outstanding.call (h : Outstanding uuid w) (node : Node) :
    Outstanding uuid (step uuid callbacks w (.call node)) :=
  h.move (advances_getUserDetails _) nofun nofun

end Worlds

section Runs

variable {Node : Type} [DecidableEq Node] (uuid : Node × ℕ ↪ JsString)
  (callbacks : Node → Callbacks)

/-- When a timeout fires, the response to its call has been handed out. -/
def InTime (run : List (Event Node)) : Prop :=
  ∀ before node call rest, run = before ++ .timeout node call :: rest →
    uuid (node, call) ∉ (worldAfter uuid callbacks before).ids

/-- Every response is handed to a node that has its entry, and the callback is given the
details. -/
def Routed (run : List (Event Node)) : Prop :=
  ∀ before i node rest r, run = before ++ .deliver i node :: rest →
    (worldAfter uuid callbacks before).responses[i]? = some r →
      ∃ entry, ((worldAfter uuid callbacks before).clients node).correlationMap.get
          r.correlationId = some entry ∧
        ((worldAfter uuid callbacks (before ++ [.deliver i node])).clients node).invocations =
          ((worldAfter uuid callbacks before).clients node).invocations ++
            [(entry.callback, .json r.reply.user)]

/-- The broker hands every response to the node whose call it answers. -/
def ToAsker (run : List (Event Node)) : Prop :=
  ∀ before i node rest r, run = before ++ .deliver i node :: rest →
    (worldAfter uuid callbacks before).responses[i]? = some r →
      ∃ call, r.correlationId = uuid (node, call)

variable {uuid callbacks}

theorem outstanding_of_inTime {run : List (Event Node)} (h : InTime uuid callbacks run) :
    Outstanding uuid (worldAfter uuid callbacks run) := by
  induction run using List.reverseRecOn with
  | nil => exact fresh_outstanding
  | append_singleton run event ih =>
    have hbefore := ih fun before node call rest hsplit =>
      h before node call (rest ++ [event]) (by simp [hsplit])
    rw [worldAfter_concat]
    cases event with
    | call node => exact hbefore.call node
    | serve i reply => exact hbefore.serve i reply
    | deliver i node => exact hbefore.deliver i node
    | timeout node call => exact hbefore.timeout (h run node call [] rfl)

theorem InTime.init {before rest : List (Event Node)} (h : InTime uuid callbacks (before ++ rest)) :
    InTime uuid callbacks before := fun before' node call rest' hsplit =>
  h before' node call (rest' ++ rest) (by simp [hsplit])

theorem routed_iff_toAsker {run : List (Event Node)} (h : InTime uuid callbacks run) :
    Routed uuid callbacks run ↔ ToAsker uuid callbacks run := by
  constructor
  · intro hrouted before i node rest r hsplit hi
    obtain ⟨entry, hget, -⟩ := hrouted before i node rest r hsplit hi
    have hbefore := outstanding_of_inTime (InTime.init (hsplit ▸ h))
    exact hbefore.named node r.correlationId entry hget
  · intro hasker before i node rest r hsplit hi
    obtain ⟨call, hcall⟩ := hasker before i node rest r hsplit hi
    have hbefore := outstanding_of_inTime (InTime.init (hsplit ▸ h))
    have hid : r.correlationId ∈ (worldAfter uuid callbacks before).ids :=
      (ids_deliver hi).symm.subset List.mem_cons_self
    obtain ⟨other, call', heq, -, hget⟩ := hbefore.present _ hid
    obtain ⟨rfl, rfl⟩ := Prod.mk.inj (uuid.injective (hcall.symm.trans heq))
    refine ⟨_, hget, ?_⟩
    rw [worldAfter_concat]
    simp only [step, hi, move_self]
    exact invocations_onMessage r.reply.parses hget

/-- A single node is handed its own responses. -/
theorem toAsker_of_subsingleton [Subsingleton Node] {run : List (Event Node)}
    (h : InTime uuid callbacks run) : ToAsker uuid callbacks run := by
  intro before i node rest r hsplit hi
  have hbefore := outstanding_of_inTime (InTime.init (hsplit ▸ h))
  have hid : r.correlationId ∈ (worldAfter uuid callbacks before).ids :=
    (ids_deliver hi).symm.subset List.mem_cons_self
  obtain ⟨other, call, heq, -⟩ := hbefore.present _ hid
  exact ⟨call, Subsingleton.elim other node ▸ heq⟩

/-- A response to one node that another one is handed. -/
def astray (a b : Node) (reply : DetailsText) : List (Event Node) :=
  [.call a, .serve 0 reply, .deliver 0 b]

theorem not_routed_astray {a b : Node} (hab : a ≠ b) (reply : DetailsText) :
    InTime uuid callbacks (astray a b reply) ∧ ¬ Routed uuid callbacks (astray a b reply) := by
  constructor
  · intro before node call rest hsplit
    have hmem : .timeout node call ∈ astray a b reply := by simp [hsplit]
    simp [astray] at hmem
  · intro h
    obtain ⟨entry, hget, -⟩ := h [.call a, .serve 0 reply] 0 b [] ⟨uuid (a, 0), reply⟩ rfl
      (by simp [worldAfter, step, World.move, fresh, CorrelationMap.fresh, getUserDetails])
    simp [worldAfter, step, World.move, fresh, CorrelationMap.fresh, getUserDetails, hab.symm]
      at hget

/-- The details of `alice`, with the text `{}` for short. -/
def someDetails : DetailsText := ⟨js "{}", .obj [], by decide +kernel, nofun⟩

variable (uuid callbacks)

/-- When every timeout comes after its response, replies reach their askers in exactly those
runs in which the broker hands every response to the node that asked. It is sure to do so if and
only if there is one node. -/
theorem routed_iff :
    (∀ run, InTime uuid callbacks run →
      (Routed uuid callbacks run ↔ ToAsker uuid callbacks run)) ∧
    ((∀ run, InTime uuid callbacks run → Routed uuid callbacks run) ↔ Subsingleton Node) := by
  refine ⟨fun run h => routed_iff_toAsker h, fun h => ⟨fun a b => ?_⟩, fun hnode run h => ?_⟩
  · by_contra hab
    obtain ⟨htime, hnot⟩ : InTime uuid callbacks (astray a b someDetails) ∧
        ¬ Routed uuid callbacks (astray a b someDetails) := not_routed_astray hab someDetails
    exact hnot (h _ htime)
  · exact (routed_iff_toAsker h).mpr (toAsker_of_subsingleton h)

end Runs

/-- The ids of two nodes. -/
def twoNodes : Bool × ℕ ↪ JsString where
  toFun pair := (if pair.1 then 1 else 2) :: List.replicate pair.2 0
  inj' a b h := by
    obtain ⟨hnode, hcall⟩ := List.cons.inj h
    refine Prod.ext ?_ (List.replicate_left_injective 0 hcall)
    obtain ⟨a, m⟩ := a
    obtain ⟨b, n⟩ := b
    cases a <;> cases b <;> simp_all

/-- The callbacks of `resolveReceiver` resolve a promise. -/
def resolve : Callbacks := fun _ _ _ => ⟨0, .ok ()⟩

/-- A reply that the asker is handed. -/
def home : List (Event Bool) := [.call true, .serve 0 someDetails, .deliver 0 true]

theorem home_routed : InTime twoNodes (fun _ => resolve) home ∧
    (Routed twoNodes (fun _ => resolve) home ↔ ToAsker twoNodes (fun _ => resolve) home) := by
  have htime : InTime twoNodes (fun _ => resolve) home := by
    intro before node call rest hsplit
    have hmem : .timeout node call ∈ home := by simp [hsplit]
    simp [home] at hmem
  exact ⟨htime, (routed_iff twoNodes fun _ => resolve).1 home htime⟩

/-- A reply that the other node is handed is lost, and the callback is given `null`. -/
theorem astray_lost :
    ((worldAfter twoNodes (fun _ => resolve)
      (astray true false someDetails ++ [.timeout true 0])).clients true).invocations =
        [(0, .json .null)] ∧
      ¬ ∀ run, InTime twoNodes (fun _ => resolve) run → Routed twoNodes (fun _ => resolve) run := by
  refine ⟨by decide +kernel, fun h => ?_⟩
  obtain ⟨htime, hnot⟩ : InTime twoNodes (fun _ => resolve) (astray true false someDetails) ∧
      ¬ Routed twoNodes (fun _ => resolve) (astray true false someDetails) :=
    not_routed_astray (by decide) someDetails
  exact hnot (h _ htime)

end ChatMicroservices.ReplyRouting

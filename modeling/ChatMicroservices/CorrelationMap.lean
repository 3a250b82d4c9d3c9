import ChatMicroservices.InsertionMaps
import ChatMicroservices.JsonParsing
import Mathlib.Data.Finset.Insert
import Mathlib.Data.Finset.Erase
import Mathlib.Logic.Embedding.Basic

/-!
# The correlation map

`getUserDetails` registers a callback and a timer under a new correlation id. A response and
the timeout race for the entry: each calls the callback and deletes the entry, but a response
clears the timer first, and does not come to the deletion when the callback throws.
-/

namespace ChatMicroservices.CorrelationMap
open JavaScriptValues
open InsertionMaps (InsertionMap)

/-- What a callback does when it is called: it may make calls of its own, and throw. -/
structure Outcome where
  calls : ℕ
  result : Except JsError Unit

/-- The callbacks of all calls, by the number of the call, the number of callbacks called
before, and the argument. -/
abbrev Callbacks := ℕ → ℕ → Value → Outcome

/-- The value of a correlation id: the numbers of the call and of its timeout. -/
structure Entry where
  callback : ℕ
  timer : ℕ
  deriving DecidableEq

structure Client where
  calls : ℕ
  correlationMap : InsertionMap JsString Entry
  timers : Finset ℕ
  invocations : List (ℕ × Value)

def fresh : Client := ⟨0, InsertionMap.empty, ∅, []⟩

section Client

variable (uuid : ℕ ↪ JsString) (callbacks : Callbacks)

/-- `getUserDetails`. Whether the request can be sent makes no difference to the map. -/
def getUserDetails (s : Client) : Client where
  calls := s.calls + 1
  correlationMap := s.correlationMap.set (uuid s.calls) ⟨s.calls, s.calls⟩
  timers := insert s.calls s.timers
  invocations := s.invocations

/-- `entry.callback(argument)` -/
def invoke (callback : ℕ) (argument : Value) (s : Client) : Except JsError Unit × Client :=
  let outcome := callbacks callback s.invocations.length argument
  (outcome.result, (getUserDetails uuid)^[outcome.calls]
    { s with invocations := s.invocations ++ [(callback, argument)] })

/-- The consumer of the response queue. -/
def onMessage (correlationId : Option JsString) (content : JsString) (s : Client) : Client :=
  match JSON.parse content with
  | .error _ => s
  | .ok user =>
    match correlationId with
    | none => s
    | some id =>
      match s.correlationMap.get id with
      | none => s
      | some entry =>
        match invoke uuid callbacks entry.callback (.json user)
          { s with timers := s.timers.erase entry.timer } with
        | (.ok (), s) => { s with correlationMap := s.correlationMap.delete id }
        | (.error _, s) => s

/-- The function that the timeout of a call runs. -/
def onTimeout (call : ℕ) (s : Client) : Client :=
  match s.correlationMap.get (uuid call) with
  | none => s
  | some entry =>
    let s := (invoke uuid callbacks entry.callback (.json .null) s).2
    { s with correlationMap := s.correlationMap.delete (uuid call) }

inductive Event where
  | call
  | message (correlationId : Option JsString) (content : JsString)
  | timeout (call : ℕ)
  deriving DecidableEq

/-- A timeout that is not armed does not fire. -/
def step (s : Client) : Event → Client
  | .call => getUserDetails uuid s
  | .message correlationId content => onMessage uuid callbacks correlationId content s
  | .timeout call =>
    if call ∈ s.timers then
      onTimeout uuid callbacks call { s with timers := s.timers.erase call }
    else s

def clientAfter (run : List Event) : Client := run.foldl (step uuid callbacks) fresh

end Client

def Pending (s : Client) (id : JsString) : Prop := s.correlationMap.get id ≠ none

instance (s : Client) (id : JsString) : Decidable (Pending s id) :=
  inferInstanceAs (Decidable (_ ≠ _))

/-- The calls whose callbacks have been called. -/
def invoked (s : Client) : List ℕ := s.invocations.map Prod.fst

variable {uuid : ℕ ↪ JsString} {callbacks : Callbacks}

/-- Every entry belongs to a call. Except for the entry `current`, which is being settled, its
timeout is armed and its callback has not been called. -/
structure Tracks (uuid : ℕ ↪ JsString) (current : Option JsString) (s : Client) : Prop where
  named : ∀ id entry, s.correlationMap.get id = some entry →
    id = uuid entry.callback ∧ entry.timer = entry.callback ∧ entry.callback < s.calls
  armed : ∀ id entry, s.correlationMap.get id = some entry → some id ≠ current →
    entry.timer ∈ s.timers
  waiting : ∀ id entry, s.correlationMap.get id = some entry → some id ≠ current →
    entry.callback ∉ invoked s
  invoked_lt : ∀ call ∈ invoked s, call < s.calls
  once : (invoked s).Nodup

section Tracking

variable {s : Client} {current : Option JsString}

theorem fresh_tracks : Tracks uuid none fresh where
  named := nofun
  armed := nofun
  waiting := nofun
  invoked_lt := nofun
  once := List.nodup_nil

theorem get_getUserDetails (s : Client) (id : JsString) :
    (getUserDetails uuid s).correlationMap.get id =
      if id = uuid s.calls then some ⟨s.calls, s.calls⟩ else s.correlationMap.get id :=
  InsertionMaps.InsertionMap.get_set _ _ _ _

theorem Tracks.getUserDetails (h : Tracks uuid current s) :
    Tracks uuid current (getUserDetails uuid s) where
  named id entry hget := by
    rw [get_getUserDetails] at hget
    split at hget
    · rename_i hid
      obtain rfl := Option.some.inj hget
      exact ⟨hid, rfl, Nat.lt_succ_self _⟩
    · obtain ⟨hid, htimer, hlt⟩ := h.named id entry hget
      exact ⟨hid, htimer, Nat.lt_succ_of_lt hlt⟩
  armed id entry hget hne := by
    rw [get_getUserDetails] at hget
    split at hget
    · obtain rfl := Option.some.inj hget
      exact Finset.mem_insert_self _ _
    · exact Finset.mem_insert_of_mem (h.armed id entry hget hne)
  waiting id entry hget hne := by
    rw [get_getUserDetails] at hget
    split at hget
    · obtain rfl := Option.some.inj hget
      exact fun hmem => Nat.lt_irrefl _ (h.invoked_lt _ hmem)
    · exact h.waiting id entry hget hne
  invoked_lt call hcall := Nat.lt_succ_of_lt (h.invoked_lt call hcall)
  once := h.once

theorem Tracks.iterate (h : Tracks uuid current s) (n : ℕ) :
    Tracks uuid current ((CorrelationMap.getUserDetails uuid)^[n] s) := by
  induction n generalizing s with
  | zero => exact h
  | succ n ih => exact ih h.getUserDetails

/-- The entry whose timer is cleared and whose callback is called is being settled. -/
theorem Tracks.invoke (h : Tracks uuid none s) {id : JsString} {entry : Entry}
    (hget : s.correlationMap.get id = some entry) (argument : Value) :
    Tracks uuid (some id) (invoke uuid callbacks entry.callback argument
      { s with timers := s.timers.erase entry.timer }).2 := by
  obtain ⟨hid, htimer, hlt⟩ := h.named id entry hget
  have hother : ∀ id' entry', s.correlationMap.get id' = some entry' → some id' ≠ some id →
      entry'.callback ≠ entry.callback := by
    intro id' entry' hget' hne heq
    refine hne (congrArg some ?_)
    rw [(h.named id' entry' hget').1, heq, hid]
  suffices hstate : Tracks uuid (some id)
      { s with
        timers := s.timers.erase entry.timer
        invocations := s.invocations ++ [(entry.callback, argument)] } from hstate.iterate _
  refine ⟨h.named, fun id' entry' hget' hne => ?_, fun id' entry' hget' hne => ?_,
    fun call hcall => ?_, ?_⟩
  · refine Finset.mem_erase.mpr ⟨?_, h.armed id' entry' hget' nofun⟩
    rw [htimer, (h.named id' entry' hget').2.1]
    exact hother id' entry' hget' hne
  · simp only [invoked, List.map_append, List.mem_append, List.map_cons, List.map_nil,
      List.mem_singleton, not_or]
    exact ⟨h.waiting id' entry' hget' nofun, hother id' entry' hget' hne⟩
  · simp only [invoked, List.map_append, List.mem_append, List.map_cons, List.map_nil,
      List.mem_singleton] at hcall
    rcases hcall with hcall | rfl
    · exact h.invoked_lt call hcall
    · exact hlt
  · simp only [invoked, List.map_append, List.map_cons, List.map_nil]
    exact List.nodup_append'.mpr ⟨h.once, List.nodup_singleton _,
      List.disjoint_singleton.mpr (h.waiting id entry hget nofun)⟩

theorem Tracks.delete {id : JsString} (h : Tracks uuid (some id) s) :
    Tracks uuid none { s with correlationMap := s.correlationMap.delete id } := by
  have hkept : ∀ id' entry', (s.correlationMap.delete id).get id' = some entry' →
      some id' ≠ some id ∧ s.correlationMap.get id' = some entry' := by
    intro id' entry' hget
    rw [InsertionMaps.InsertionMap.get_delete] at hget
    split at hget
    · cases hget
    · rename_i hne
      exact ⟨fun heq => hne (Option.some.inj heq), hget⟩
  refine ⟨fun id' entry' hget => ?_, fun id' entry' hget _ => ?_, fun id' entry' hget _ => ?_,
    h.invoked_lt, h.once⟩
  · exact h.named id' entry' (hkept id' entry' hget).2
  · exact h.armed id' entry' (hkept id' entry' hget).2 (hkept id' entry' hget).1
  · exact h.waiting id' entry' (hkept id' entry' hget).2 (hkept id' entry' hget).1

/-- If the event is a response to a pending call, the callback does not throw. -/
def Returns (callbacks : Callbacks) (s : Client) : Event → Prop
  | .call | .timeout _ | .message none _ => True
  | .message (some id) content => ∀ user entry, JSON.parse content = .ok user →
      s.correlationMap.get id = some entry →
        (callbacks entry.callback s.invocations.length (.json user)).result = .ok ()

theorem Tracks.message (h : Tracks uuid none s) {id : Option JsString} {content : JsString}
    (hreturns : Returns callbacks s (.message id content)) :
    Tracks uuid none (onMessage uuid callbacks id content s) := by
  cases hparse : JSON.parse content with
  | error e => simpa [onMessage, hparse] using h
  | ok user =>
    cases id with
    | none => simpa [onMessage, hparse] using h
    | some id =>
      cases hget : s.correlationMap.get id with
      | none => simpa [onMessage, hparse, hget] using h
      | some entry =>
        have hresult := hreturns user entry hparse hget
        have hinvoked : Tracks uuid (some id) (CorrelationMap.invoke uuid callbacks entry.callback
            (.json user) { s with timers := s.timers.erase entry.timer }).2 :=
          h.invoke hget (.json user)
        simp only [onMessage, hparse, hget, CorrelationMap.invoke, hresult]
        exact hinvoked.delete

theorem Tracks.timeout (h : Tracks uuid none s) (call : ℕ) :
    Tracks uuid none
      (onTimeout uuid callbacks call { s with timers := s.timers.erase call }) := by
  cases hget : s.correlationMap.get (uuid call) with
  | none =>
    simp only [onTimeout, hget]
    refine ⟨h.named, fun id entry hget' hne => ?_, h.waiting, h.invoked_lt, h.once⟩
    refine Finset.mem_erase.mpr ⟨fun heq => ?_, h.armed id entry hget' hne⟩
    obtain ⟨hid, htimer, -⟩ := h.named id entry hget'
    rw [hid, ← htimer, heq, hget] at hget'
    cases hget'
  | some entry =>
    obtain ⟨hid, htimer, -⟩ := h.named _ entry hget
    obtain rfl : call = entry.timer := by rw [htimer, uuid.injective hid]
    simp only [onTimeout, hget]
    have hinvoked : Tracks uuid (some (uuid entry.timer)) (CorrelationMap.invoke uuid callbacks
        entry.callback (.json .null) { s with timers := s.timers.erase entry.timer }).2 :=
      h.invoke hget (.json .null)
    exact hinvoked.delete

theorem Tracks.step (h : Tracks uuid none s) {event : Event}
    (hreturns : Returns callbacks s event) : Tracks uuid none (step uuid callbacks s event) := by
  cases event with
  | call => exact h.getUserDetails
  | message id content => exact h.message hreturns
  | timeout call =>
    rw [CorrelationMap.step]
    split
    · exact h.timeout call
    · exact h

end Tracking

/-- In every state of the run, every callback has been called at most once and every entry has
its timeout armed; a parseable response to a pending call, or its timeout, removes its entry. -/
structure Correlates (uuid : ℕ ↪ JsString) (callbacks : Callbacks) (run : List Event) : Prop where
  once : ∀ history, history <+: run → (invoked (clientAfter uuid callbacks history)).Nodup
  armed : ∀ history, history <+: run → ∀ id entry,
    (clientAfter uuid callbacks history).correlationMap.get id = some entry →
      entry.timer ∈ (clientAfter uuid callbacks history).timers
  answered : ∀ before id content rest user, run = before ++ .message (some id) content :: rest →
    JSON.parse content = .ok user → Pending (clientAfter uuid callbacks before) id →
      ¬ Pending (clientAfter uuid callbacks (before ++ [.message (some id) content])) id
  expired : ∀ before call rest, run = before ++ .timeout call :: rest →
    call ∈ (clientAfter uuid callbacks before).timers →
      ¬ Pending (clientAfter uuid callbacks (before ++ [.timeout call])) (uuid call)

section Runs

variable {s : Client}

@[simp] theorem clientAfter_concat (history : List Event) (event : Event) :
    clientAfter uuid callbacks (history ++ [event]) =
      step uuid callbacks (clientAfter uuid callbacks history) event := by
  simp [clientAfter]

/-- Calls made by a callback do not remove entries. -/
theorem pending_iterate {id : JsString} (h : Pending s id) (n : ℕ) :
    Pending ((getUserDetails uuid)^[n] s) id := by
  induction n generalizing s with
  | zero => exact h
  | succ n ih =>
    refine ih ?_
    rw [Pending, get_getUserDetails]
    split
    · exact Option.some_ne_none _
    · exact h

/-- A callback that throws leaves its entry. -/
theorem pending_of_throws {id content : JsString} {user : Json} {entry : Entry}
    (hparse : JSON.parse content = .ok user) (hget : s.correlationMap.get id = some entry)
    (hthrows : (callbacks entry.callback s.invocations.length (.json user)).result ≠ .ok ()) :
    Pending (onMessage uuid callbacks (some id) content s) id := by
  cases hresult : (callbacks entry.callback s.invocations.length (.json user)).result with
  | ok u => exact absurd hresult hthrows
  | error e =>
    simp only [onMessage, hparse, hget, invoke, hresult]
    exact pending_iterate (by simp [Pending, hget]) _

theorem not_pending_of_returns {id content : JsString} {user : Json}
    (hparse : JSON.parse content = .ok user)
    (hreturns : Returns callbacks s (.message (some id) content)) :
    ¬ Pending (onMessage uuid callbacks (some id) content s) id := by
  cases hget : s.correlationMap.get id with
  | none => simp [onMessage, hparse, hget, Pending]
  | some entry =>
    have hresult := hreturns user entry hparse hget
    simp [onMessage, hparse, hget, invoke, hresult, Pending]

theorem not_pending_of_timeout (s : Client) (call : ℕ) :
    ¬ Pending (onTimeout uuid callbacks call s) (uuid call) := by
  cases hget : s.correlationMap.get (uuid call) with
  | none => simp [onTimeout, hget, Pending]
  | some entry => simp [onTimeout, hget, Pending]

theorem tracks_of_returns {run : List Event}
    (h : ∀ before event rest, run = before ++ event :: rest →
      Returns callbacks (clientAfter uuid callbacks before) event) :
    Tracks uuid none (clientAfter uuid callbacks run) := by
  induction run using List.reverseRecOn with
  | nil => exact fresh_tracks
  | append_singleton run event ih =>
    rw [clientAfter_concat]
    refine (ih fun before event' rest hsplit => ?_).step (h run event [] rfl)
    exact h before event' (rest ++ [event]) (by simp [hsplit])

/-- Correlation is at most once and free of leaks in exactly those runs in which no callback
throws when it is called with a response. -/
theorem correlates_iff (uuid : ℕ ↪ JsString) (callbacks : Callbacks) (run : List Event) :
    Correlates uuid callbacks run ↔ ∀ before event rest, run = before ++ event :: rest →
      Returns callbacks (clientAfter uuid callbacks before) event := by
  constructor
  · intro h before event rest hsplit
    cases event with
    | call => trivial
    | timeout call => trivial
    | message id content =>
      cases id with
      | none => trivial
      | some id =>
        intro user entry hparse hget
        by_contra hthrows
        refine h.answered before id content rest user hsplit hparse (by simp [Pending, hget]) ?_
        rw [clientAfter_concat]
        exact pending_of_throws hparse hget hthrows
  · intro h
    have htracks : ∀ history, history <+: run →
        Tracks uuid none (clientAfter uuid callbacks history) := by
      rintro history ⟨rest, rfl⟩
      refine tracks_of_returns fun before event rest' hsplit => ?_
      exact h before event (rest' ++ rest) (by simp [hsplit])
    refine ⟨fun history hprefix => (htracks history hprefix).once,
      fun history hprefix id entry hget => (htracks history hprefix).armed id entry hget
        (Option.some_ne_none id),
      fun before id content rest user hsplit hparse _ => ?_, fun before call rest hsplit hmem => ?_⟩
    · rw [clientAfter_concat]
      exact not_pending_of_returns hparse (h before _ rest hsplit)
    · rw [clientAfter_concat, step, if_pos hmem]
      exact not_pending_of_timeout _ call

end Runs

/-- Correlation ids that count in unary. -/
def unary : ℕ ↪ JsString := ⟨fun n => List.replicate n 0, List.replicate_left_injective 0⟩

/-- The callback throws, and the response comes twice. -/
def repeatedResponse : List Event :=
  [.call, .message (some (unary 0)) (js "{}"), .message (some (unary 0)) (js "{}")]

def throwing : Callbacks := fun _ _ _ => ⟨0, .error (.failure "callback")⟩

theorem repeatedResponse_leaks :
    invoked (clientAfter unary throwing repeatedResponse) = [0, 0] ∧
      Pending (clientAfter unary throwing repeatedResponse) (unary 0) ∧
      (clientAfter unary throwing repeatedResponse).timers = ∅ ∧
      ¬ ∀ uuid callbacks run, Correlates uuid callbacks run := by
  have hinvoked : invoked (clientAfter unary throwing repeatedResponse) = [0, 0] := by
    decide +kernel
  refine ⟨hinvoked, by decide +kernel, by decide +kernel, fun h => ?_⟩
  have honce := (h unary throwing repeatedResponse).once repeatedResponse List.prefix_rfl
  rw [hinvoked] at honce
  exact absurd honce (by decide)

end ChatMicroservices.CorrelationMap

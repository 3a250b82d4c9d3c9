import ChatMicroservices.JavaScriptValues
import ChatMicroservices.Promises
import Mathlib.Data.Fintype.Defs
import Mathlib.Data.Finset.Insert

/-!
# The Redis service

`createRedisContext` creates three clients, waits until each of them is ready, and then tracks
whether they stay connected. Each wait is a promise that two listeners and a timeout share.
-/

namespace ChatMicroservices.RedisService
open JavaScriptValues
open Promises (Promise)

inductive Role where
  | pub
  | sub
  | presence
  deriving DecidableEq

instance : Fintype Role := ⟨{.pub, .sub, .presence}, fun role => by cases role <;> decide⟩

def Role.name : Role → String
  | .pub => "pub"
  | .sub => "sub"
  | .presence => "presence"

/-- The status of a client, as far as it is read. -/
inductive ClientStatus where
  | wait
  | ready
  | close
  deriving DecidableEq

/-- The promise, the time at which its timeout is due, and the listeners that are registered. -/
structure Waiting where
  promise : Promise Unit JsError
  timeout : Option ℕ
  onceReady : Bool
  onceError : Bool
  deriving DecidableEq

def timedOut (role : Role) : JsError :=
  .failure s!"[RedisService:{role.name}] connection timed out after 5s"

def waitReady (now : ℕ) : Waiting := ⟨.pending, some (now + 5000), true, true⟩

namespace Waiting

def onReady (w : Waiting) : Waiting :=
  if w.onceReady then
    { w with timeout := none, promise := w.promise.resolve (), onceReady := false }
  else w

/-- The listener clears the timeout and leaves the promise as it is. -/
def onError (w : Waiting) : Waiting :=
  if w.onceError then { w with timeout := none, onceError := false } else w

def onTime (role : Role) (now : ℕ) (w : Waiting) : Waiting :=
  match w.timeout with
  | none => w
  | some due =>
    if due ≤ now then { w with timeout := none, promise := w.promise.reject (timedOut role) }
    else w

end Waiting

/-- The clients, the calls of `waitReady`, the promise that `createRedisContext` returns, the
variable `healthy`, and the gauge `redis_adapter_connected`. -/
structure State where
  now : ℕ
  status : Role → ClientStatus
  waiting : Role → Waiting
  context : Promise Unit JsError
  healthy : Bool
  redisConnectedGauge : ℕ

/-- A millisecond passes, or `createRedisContext` continues once the promise it awaits has
settled; the other events are those of a client. -/
inductive Event where
  | ready (role : Role)
  | close (role : Role)
  | error (role : Role)
  | elapse
  | resume
  deriving DecidableEq

def createRedisContext : State where
  now := 0
  status _ := .wait
  waiting _ := waitReady 0
  context := .pending
  healthy := false
  redisConnectedGauge := 0

namespace State

/-- `await Promise.all([…])` -/
def allReady (s : State) : Promise (List Unit) JsError :=
  Promise.all [(s.waiting .pub).promise, (s.waiting .sub).promise, (s.waiting .presence).promise]

/-- The listener on `close` that is attached when `createRedisContext` returns. -/
def onClose (s : State) : State := { s with healthy := false, redisConnectedGauge := 0 }

/-- The listener on `ready` that is attached when `createRedisContext` returns. -/
def onReady (s : State) : State :=
  let healthy := s.status .pub = .ready ∧ s.status .sub = .ready ∧ s.status .presence = .ready
  { s with
    healthy := healthy
    redisConnectedGauge := if healthy then 1 else s.redisConnectedGauge }

/-- The part of `createRedisContext` after the wait. -/
def resume (s : State) : State :=
  match s.context, s.allReady with
  | .pending, .fulfilled _ =>
    { s with context := .fulfilled (), healthy := true, redisConnectedGauge := 1 }
  | .pending, .rejected err => { s with context := .rejected err }
  | _, _ => s

/-- `ifReturned` applies a listener that is attached when `createRedisContext` returns. -/
def ifReturned (listener : State → State) (s : State) : State :=
  match s.context with
  | .fulfilled () => listener s
  | _ => s

def step (s : State) : Event → State
  | .ready role => ifReturned onReady
    { s with
      status := Function.update s.status role .ready
      waiting := Function.update s.waiting role (s.waiting role).onReady }
  | .close role => ifReturned onClose
    { s with status := Function.update s.status role .close }
  | .error role =>
    { s with waiting := Function.update s.waiting role (s.waiting role).onError }
  | .elapse =>
    { s with
      now := s.now + 1
      waiting := fun role => (s.waiting role).onTime role (s.now + 1) }
  | .resume => s.resume

end State

/-- The state after the events since `createRedisContext` was called. -/
def stateAfter (events : List Event) : State := events.foldl State.step createRedisContext

@[simp] theorem stateAfter_append_singleton (events : List Event) (event : Event) :
    stateAfter (events ++ [event]) = (stateAfter events).step event :=
  List.foldl_concat ..

/-- `isHealthy()` -/
def State.isHealthy (s : State) : Bool := s.healthy

inductive StoreChoice where
  | distributed
  | inProcess
  deriving DecidableEq

/-- `start`, which goes on when the promise of `createRedisContext` has settled. -/
def start : Promise Unit JsError → Option StoreChoice
  | .pending => none
  | .fulfilled () => some .distributed
  | .rejected _ => some .inProcess

namespace State

theorem ifReturned_waiting {listener : State → State}
    (h : ∀ s, (listener s).waiting = s.waiting) (s : State) :
    (ifReturned listener s).waiting = s.waiting := by
  unfold ifReturned
  split
  · exact h s
  · rfl

theorem ifReturned_now {listener : State → State}
    (h : ∀ s, (listener s).now = s.now) (s : State) :
    (ifReturned listener s).now = s.now := by
  unfold ifReturned
  split
  · exact h s
  · rfl

theorem ifReturned_context {listener : State → State}
    (h : ∀ s, (listener s).context = s.context) (s : State) :
    (ifReturned listener s).context = s.context := by
  unfold ifReturned
  split
  · exact h s
  · rfl

@[simp] theorem onClose_waiting (s : State) : s.onClose.waiting = s.waiting := rfl

@[simp] theorem onReady_waiting (s : State) : s.onReady.waiting = s.waiting := rfl

@[simp] theorem onClose_context (s : State) : s.onClose.context = s.context := rfl

@[simp] theorem onReady_context (s : State) : s.onReady.context = s.context := rfl

@[simp] theorem onClose_now (s : State) : s.onClose.now = s.now := rfl

@[simp] theorem onReady_now (s : State) : s.onReady.now = s.now := rfl

@[simp] theorem resume_waiting (s : State) : s.resume.waiting = s.waiting := by
  unfold resume
  split <;> rfl

@[simp] theorem resume_now (s : State) : s.resume.now = s.now := by
  unfold resume
  split <;> rfl

end State

end ChatMicroservices.RedisService

import ChatMicroservices.RedisService
import Mathlib.Data.List.Induction

/-!
# Waiting for Redis

The listener on `error` disarms the timeout of `waitReady` and leaves the promise pending. So
after five seconds the promise has settled as it should unless the client reported an error
and was not ready in that time; only then can `createRedisContext`, and `start`, be kept waiting.
-/

namespace ChatMicroservices.RedisReadiness
open RedisService
open JavaScriptValues
open Promises (Promise)

def elapsed (events : List Event) : ℕ := events.count .elapse

/-- The events until `n` milliseconds have passed. -/
def within : ℕ → List Event → List Event
  | 0, _ => []
  | _ + 1, [] => []
  | n + 1, event :: events =>
    if event = .elapse then event :: within n events else event :: within (n + 1) events

def firstFiveSeconds (events : List Event) : List Event := within 5000 events

theorem within_append_of_le {n : ℕ} {events : List Event} (h : n ≤ elapsed events)
    (later : List Event) : within n (events ++ later) = within n events := by
  induction events generalizing n with
  | nil =>
    obtain rfl : n = 0 := Nat.le_zero.mp h
    cases later <;> rfl
  | cons event events ih =>
    cases n with
    | zero => rfl
    | succ n =>
      rw [List.cons_append]
      unfold within
      split
      · rename_i hevent
        subst hevent
        rw [elapsed, List.count_cons_self] at h
        rw [ih (Nat.le_of_succ_le_succ h)]
      · rename_i hevent
        rw [elapsed, List.count_cons_of_ne hevent] at h
        rw [ih h]

/-- The event with which the last of `n` milliseconds passes is among the first. -/
theorem within_append_singleton_of_lt {n : ℕ} {events : List Event} (h : elapsed events < n)
    (event : Event) : within n (events ++ [event]) = events ++ [event] := by
  induction events generalizing n with
  | nil =>
    cases n with
    | zero => exact absurd h (Nat.not_lt_zero _)
    | succ n =>
      cases n <;> simp [within]
  | cons first events ih =>
    cases n with
    | zero => exact absurd h (Nat.not_lt_zero _)
    | succ n =>
      rw [List.cons_append]
      unfold within
      split
      · rename_i hevent
        subst hevent
        rw [elapsed, List.count_cons_self] at h
        rw [ih (Nat.lt_of_succ_lt_succ h)]
      · rename_i hevent
        rw [elapsed, List.count_cons_of_ne hevent] at h
        rw [ih h]

@[simp] theorem elapsed_append_singleton (events : List Event) (event : Event) :
    elapsed (events ++ [event]) = elapsed events + if event = .elapse then 1 else 0 := by
  rw [elapsed, List.count_append, List.count_singleton]
  simp only [beq_iff_eq, elapsed]

/-- What an event does to the call of `waitReady` for a client. -/
def heard (role : Role) (now : ℕ) (w : Waiting) : Event → Waiting
  | .ready role' => if role = role' then w.onReady else w
  | .error role' => if role = role' then w.onError else w
  | .elapse => w.onTime role (now + 1)
  | .close _ | .resume => w

theorem step_waiting (s : State) (event : Event) (role : Role) :
    (s.step event).waiting role = heard role s.now (s.waiting role) event := by
  cases event with
  | ready role' =>
    rw [State.step, State.ifReturned_waiting State.onReady_waiting]
    simp only [Function.update_apply, heard]
    split
    · rename_i h
      rw [h]
    · rfl
  | close role' => rw [State.step, State.ifReturned_waiting State.onClose_waiting]; rfl
  | error role' =>
    simp only [State.step, Function.update_apply, heard]
    split
    · rename_i h
      rw [h]
    · rfl
  | elapse => rfl
  | resume => exact congrFun (State.resume_waiting s) role

theorem stateAfter_now (events : List Event) : (stateAfter events).now = elapsed events := by
  induction events using List.reverseRecOn with
  | nil => rfl
  | append_singleton events event ih =>
    rw [stateAfter_append_singleton, elapsed_append_singleton, ← ih]
    cases event with
    | ready role => exact State.ifReturned_now State.onReady_now _
    | close role => exact State.ifReturned_now State.onClose_now _
    | error role => rfl
    | elapse => rfl
    | resume => exact State.resume_now _

/-- Before five seconds have passed, the promise is settled by the first `ready`, and the timeout
is armed until the first event of either kind. -/
structure Running (role : Role) (events : List Event) (w : Waiting) : Prop where
  onceReady : w.onceReady = true ↔ .ready role ∉ events
  onceError : w.onceError = true ↔ .error role ∉ events
  promise : w.promise = if .ready role ∈ events then .fulfilled () else .pending
  timeout : w.timeout =
    if .ready role ∈ events ∨ .error role ∈ events then none else some 5000

/-- When five seconds have passed, the timeout is not armed any more. -/
structure Over (role : Role) (events : List Event) (w : Waiting) : Prop where
  onceReady : w.onceReady = true ↔ .ready role ∉ events
  promise : w.promise =
    if .ready role ∈ firstFiveSeconds events then .fulfilled ()
    else if .error role ∉ firstFiveSeconds events then .rejected (timedOut role)
    else if .ready role ∈ events then .fulfilled ()
    else .pending
  timeout : w.timeout = none

section OneCall

variable {role : Role} {events : List Event} {w : Waiting}

theorem Running.other (h : Running role events w) {event : Event} (hready : event ≠ .ready role)
    (herror : event ≠ .error role) : Running role (events ++ [event]) w := by
  have hready' : (.ready role ∈ events ++ [event]) ↔ (.ready role ∈ events) := by
    simp [hready.symm]
  have herror' : (.error role ∈ events ++ [event]) ↔ (.error role ∈ events) := by
    simp [herror.symm]
  constructor
  · rw [hready', h.onceReady]
  · rw [herror', h.onceError]
  · simp only [hready', h.promise]
  · simp only [hready', herror', h.timeout]

theorem Running.onReady (h : Running role events w) :
    Running role (events ++ [.ready role]) w.onReady := by
  by_cases hready : .ready role ∈ events
  · have honce : w.onceReady = false := by simpa [hready] using h.onceReady
    have hw : w.onReady = w := by simp [Waiting.onReady, honce]
    rw [hw]
    constructor <;> simp [h.promise, h.timeout, h.onceError, hready, honce]
  · have honce : w.onceReady = true := h.onceReady.mpr hready
    constructor <;> simp [Waiting.onReady, honce, h.promise, h.onceError, hready]

theorem Running.onError (h : Running role events w) :
    Running role (events ++ [.error role]) w.onError := by
  by_cases herror : .error role ∈ events
  · have honce : w.onceError = false := by simpa [herror] using h.onceError
    have hw : w.onError = w := by simp [Waiting.onError, honce]
    rw [hw]
    constructor <;> simp [h.promise, h.timeout, h.onceReady, herror, honce]
  · have honce : w.onceError = true := h.onceError.mpr herror
    constructor <;> simp [Waiting.onError, honce, h.promise, h.onceReady, herror]

/-- The timeout does not run before it is due. -/
theorem Running.onTime (h : Running role events w) {now : ℕ} (hnow : now < 5000) :
    w.onTime role now = w := by
  unfold Waiting.onTime
  split
  · rfl
  · rename_i due hdue
    rw [h.timeout] at hdue
    split at hdue
    · cases hdue
    · cases hdue
      exact if_neg (Nat.not_le.mpr hnow)

/-- The timeout runs when five seconds have passed, unless it has been cleared. -/
theorem Running.expire (h : Running role events w)
    (hall : firstFiveSeconds (events ++ [.elapse]) = events ++ [.elapse]) :
    Over role (events ++ [.elapse]) (w.onTime role 5000) := by
  have hready : (.ready role ∈ events ++ [.elapse]) ↔ (.ready role ∈ events) := by simp
  have herror : (.error role ∈ events ++ [.elapse]) ↔ (.error role ∈ events) := by simp
  by_cases hr : .ready role ∈ events
  · have ht : w.timeout = none := by rw [h.timeout, if_pos (.inl hr)]
    have hw : w.onTime role 5000 = w := by simp [Waiting.onTime, ht]
    rw [hw]
    constructor
    · rw [hready, h.onceReady]
    · simp [hall, h.promise, hr]
    · exact ht
  · by_cases he : .error role ∈ events
    · have ht : w.timeout = none := by rw [h.timeout, if_pos (.inr he)]
      have hw : w.onTime role 5000 = w := by simp [Waiting.onTime, ht]
      rw [hw]
      constructor
      · rw [hready, h.onceReady]
      · simp [hall, h.promise, hr, he]
      · exact ht
    · have ht : w.timeout = some 5000 := by rw [h.timeout, if_neg (by simp [hr, he])]
      have hw : w.onTime role 5000 =
          { w with timeout := none, promise := .rejected (timedOut role) } := by
        simp [Waiting.onTime, ht, h.promise, hr]
      rw [hw]
      constructor
      · rw [hready]
        exact h.onceReady
      · simp [hall, hr, he]
      · rfl

/-- After five seconds a first `ready` still fulfils a promise that is pending. -/
theorem Over.onReady (h : Over role events w) (hfive : 5000 ≤ elapsed events)
    (hincl : .ready role ∈ firstFiveSeconds events → .ready role ∈ events) :
    Over role (events ++ [.ready role]) w.onReady := by
  have hfirst : firstFiveSeconds (events ++ [.ready role]) = firstFiveSeconds events :=
    within_append_of_le hfive _
  by_cases hready : .ready role ∈ events
  · have honce : w.onceReady = false := by simpa [hready] using h.onceReady
    have hw : w.onReady = w := by simp [Waiting.onReady, honce]
    rw [hw]
    constructor
    · simp [honce]
    · simp [hfirst, h.promise, hready]
    · exact h.timeout
  · have honce : w.onceReady = true := h.onceReady.mpr hready
    have hnot : .ready role ∉ firstFiveSeconds events := fun hmem => hready (hincl hmem)
    have hw : w.onReady =
        { w with timeout := none, promise := w.promise.resolve (), onceReady := false } := by
      simp [Waiting.onReady, honce]
    rw [hw]
    constructor
    · simp
    · simp only [hfirst, h.promise, hready, hnot, if_false, List.mem_append, List.mem_singleton,
        or_true, if_true]
      split <;> rfl
    · rfl

theorem Over.other (h : Over role events w) (hfive : 5000 ≤ elapsed events) {event : Event}
    (hready : event ≠ .ready role) : Over role (events ++ [event]) w := by
  have hfirst : firstFiveSeconds (events ++ [event]) = firstFiveSeconds events :=
    within_append_of_le hfive _
  have hready' : (.ready role ∈ events ++ [event]) ↔ (.ready role ∈ events) := by
    simp [hready.symm]
  constructor
  · rw [hready', h.onceReady]
  · simp only [hfirst, hready', h.promise]
  · exact h.timeout

theorem Over.onError (h : Over role events w) : Over role events w.onError := by
  unfold Waiting.onError
  split
  · exact ⟨h.onceReady, h.promise, rfl⟩
  · exact h

theorem Over.onTime (h : Over role events w) (now : ℕ) : w.onTime role now = w := by
  unfold Waiting.onTime
  rw [h.timeout]

end OneCall

theorem mem_of_mem_within {n : ℕ} {events : List Event} {event : Event}
    (h : event ∈ within n events) : event ∈ events := by
  induction events generalizing n with
  | nil => cases n <;> exact h
  | cons first events ih =>
    cases n with
    | zero => cases h
    | succ n =>
      unfold within at h
      split at h <;>
        exact (List.mem_cons.mp h).elim (fun heq => heq ▸ List.mem_cons_self)
          fun hmem => List.mem_cons_of_mem _ (ih hmem)

theorem waiting_running (role : Role) {events : List Event} (h : elapsed events < 5000) :
    Running role events ((stateAfter events).waiting role) := by
  induction events using List.reverseRecOn with
  | nil => exact ⟨by simp [stateAfter, createRedisContext, waitReady],
      by simp [stateAfter, createRedisContext, waitReady], rfl, rfl⟩
  | append_singleton events event ih =>
    rw [elapsed_append_singleton] at h
    have hbefore := ih (Nat.lt_of_le_of_lt (Nat.le_add_right _ _) h)
    rw [stateAfter_append_singleton, step_waiting, stateAfter_now]
    cases event with
    | ready role' =>
      by_cases hrole : role = role'
      · subst hrole
        rw [heard, if_pos rfl]
        exact hbefore.onReady
      · rw [heard, if_neg hrole]
        exact hbefore.other (by simp [Ne.symm hrole]) (by simp)
    | error role' =>
      by_cases hrole : role = role'
      · subst hrole
        rw [heard, if_pos rfl]
        exact hbefore.onError
      · rw [heard, if_neg hrole]
        exact hbefore.other (by simp) (by simp [Ne.symm hrole])
    | close role' => exact hbefore.other (by simp) (by simp)
    | resume => exact hbefore.other (by simp) (by simp)
    | elapse =>
      rw [heard, hbefore.onTime (by simpa using h)]
      exact hbefore.other (by simp) (by simp)

theorem waiting_over (role : Role) {events : List Event} (h : 5000 ≤ elapsed events) :
    Over role events ((stateAfter events).waiting role) := by
  induction events using List.reverseRecOn with
  | nil => exact absurd h (by decide)
  | append_singleton events event ih =>
    rw [stateAfter_append_singleton, step_waiting, stateAfter_now]
    rw [elapsed_append_singleton] at h
    by_cases hbefore : 5000 ≤ elapsed events
    · have hover := ih hbefore
      cases event with
      | ready role' =>
        by_cases hrole : role = role'
        · subst hrole
          rw [heard, if_pos rfl]
          exact hover.onReady hbefore mem_of_mem_within
        · rw [heard, if_neg hrole]
          exact hover.other hbefore (by simp [Ne.symm hrole])
      | error role' =>
        by_cases hrole : role = role'
        · rw [heard, if_pos hrole]
          exact (hover.other hbefore (by simp)).onError
        · rw [heard, if_neg hrole]
          exact hover.other hbefore (by simp)
      | close role' => exact hover.other hbefore (by simp)
      | resume => exact hover.other hbefore (by simp)
      | elapse =>
        rw [heard, hover.onTime]
        exact hover.other hbefore (by simp)
    · -- The event is the passing of the last of the five seconds.
      have hlt : elapsed events < 5000 := Nat.lt_of_not_le hbefore
      have hevent : event = .elapse := by
        by_contra hne
        rw [if_neg hne] at h
        exact hbefore h
      subst hevent
      have hnow : elapsed events + 1 = 5000 := by
        rw [if_pos rfl] at h
        omega
      rw [heard, hnow]
      exact (waiting_running role hlt).expire (within_append_singleton_of_lt hlt _)

/-- Five seconds after the call, the promise is fulfilled if the client was ready by then, and
rejected otherwise. -/
def SettlesInTime (events : List Event) (role : Role) : Prop :=
  ((stateAfter events).waiting role).promise =
    if .ready role ∈ firstFiveSeconds events then .fulfilled () else .rejected (timedOut role)

theorem settlesInTime_iff (role : Role) {events : List Event} (hfive : 5000 ≤ elapsed events) :
    SettlesInTime events role ↔
      .ready role ∈ firstFiveSeconds events ∨ .error role ∉ firstFiveSeconds events := by
  rw [SettlesInTime, (waiting_over role hfive).promise]
  by_cases hready : .ready role ∈ firstFiveSeconds events
  · simp [hready]
  · by_cases herror : .error role ∈ firstFiveSeconds events
    · simp only [hready, herror, if_false, not_true_eq_false, or_self, iff_false]
      split <;> simp
    · simp [hready, herror]

section Settled

variable {role : Role} {now : ℕ} {w : Waiting} {event : Event}

/-- A promise that has settled stays as it is. -/
theorem heard_promise (h : w.promise.Settled) :
    (heard role now w event).promise = w.promise := by
  have hresolve : w.promise.resolve () = w.promise := by
    cases hp : w.promise with
    | pending => exact absurd hp h
    | fulfilled value => rfl
    | rejected reason => rfl
  have hreject : w.promise.reject (timedOut role) = w.promise := by
    cases hp : w.promise with
    | pending => exact absurd hp h
    | fulfilled value => rfl
    | rejected reason => rfl
  have honReady : w.onReady.promise = w.promise := by
    unfold Waiting.onReady
    split
    · exact hresolve
    · rfl
  have honError : w.onError.promise = w.promise := by
    unfold Waiting.onError
    split <;> rfl
  cases event with
  | ready role' =>
    rw [heard]
    split
    · exact honReady
    · rfl
  | error role' =>
    rw [heard]
    split
    · exact honError
    · rfl
  | close role' => rfl
  | resume => rfl
  | elapse =>
    rw [heard]
    unfold Waiting.onTime
    split
    · rfl
    · split
      · exact hreject
      · rfl

end Settled

/-- The promise of `createRedisContext` settles as the promises that it waits for. -/
structure Follows (s : State) : Prop where
  fulfilled : s.context = .fulfilled () → ∀ role, (s.waiting role).promise = .fulfilled ()
  rejected : ∀ err, s.context = .rejected err →
    ∃ role reason, (s.waiting role).promise = .rejected reason

theorem allReady_fulfilled {s : State} {values : List Unit}
    (h : s.allReady = .fulfilled values) (role : Role) :
    (s.waiting role).promise = .fulfilled () := by
  have hps := (Promise.all_eq_fulfilled_iff _ _).mp h
  have hmem : (s.waiting role).promise ∈ values.map Promise.fulfilled := by
    rw [← hps]
    cases role <;> simp
  obtain ⟨value, -, hvalue⟩ := List.mem_map.mp hmem
  exact hvalue.symm

theorem allReady_rejected {s : State} {err : JsError} (h : s.allReady = .rejected err) :
    ∃ role reason, (s.waiting role).promise = .rejected reason := by
  have hmem := Promise.all_rejected h
  simp only [List.mem_cons, List.not_mem_nil, or_false] at hmem
  rcases hmem with hp | hp | hp <;> exact ⟨_, err, hp.symm⟩

theorem Follows.step {s : State} (h : Follows s) (event : Event) : Follows (s.step event) := by
  have hkept : ∀ role, (s.waiting role).promise.Settled →
      ((s.step event).waiting role).promise = (s.waiting role).promise := by
    intro role hsettled
    rw [step_waiting]
    exact heard_promise hsettled
  have hsame : (s.step event).context = s.context → Follows (s.step event) := by
    intro hcontext
    constructor
    · intro hful role
      have hp := h.fulfilled (hcontext ▸ hful) role
      rw [hkept role (by simp [hp]), hp]
    · intro err hrej
      obtain ⟨role, reason, hp⟩ := h.rejected err (hcontext ▸ hrej)
      exact ⟨role, reason, by rw [hkept role (by simp [hp]), hp]⟩
  cases event with
  | ready role => exact hsame (State.ifReturned_context State.onReady_context _)
  | close role => exact hsame (State.ifReturned_context State.onClose_context _)
  | error role => exact hsame rfl
  | elapse => exact hsame rfl
  | resume =>
    simp only [State.step, State.resume] at hsame ⊢
    split
    · rename_i values hpending hall
      exact ⟨fun _ => allReady_fulfilled hall, nofun⟩
    · rename_i err hpending hall
      exact ⟨nofun, fun _ _ => allReady_rejected hall⟩
    · exact h

theorem follows (events : List Event) : Follows (stateAfter events) := by
  induction events using List.reverseRecOn with
  | nil => exact ⟨nofun, nofun⟩
  | append_singleton events event ih =>
    rw [stateAfter_append_singleton]
    exact ih.step event

/-- The store that `start` installs when all clients are ready in time, and otherwise. -/
def storeInTime (events : List Event) : StoreChoice :=
  if ∀ role, .ready role ∈ firstFiveSeconds events then .distributed else .inProcess

/-- What is promised: each promise settles as it should within the five seconds, then
`createRedisContext` settles when it goes on, and `start` has the store it should have. -/
structure WaitEnds (events : List Event) : Prop where
  settles : ∀ role, SettlesInTime events role
  returns : (stateAfter (events ++ [.resume])).context.Settled
  starts : start (stateAfter (events ++ [.resume])).context = some (storeInTime events)

theorem start_settled {context : Promise Unit JsError} (h : context.Settled) :
    start context = some (if context = .fulfilled () then .distributed else .inProcess) := by
  cases context with
  | pending => exact absurd rfl h
  | fulfilled value => rfl
  | rejected reason => rfl

/-- When all promises have settled, so has that of `createRedisContext` once it goes on. -/
theorem resume_settled {s : State} (h : ∀ role, (s.waiting role).promise.Settled) :
    s.resume.context.Settled := by
  unfold State.resume
  split
  · exact Promise.settled_fulfilled _
  · exact Promise.settled_rejected _
  · rename_i hfulfilled hrejected
    intro hpending
    have hps : ∀ p ∈ [(s.waiting .pub).promise, (s.waiting .sub).promise,
        (s.waiting .presence).promise], p.Settled := by
      simp [h]
    cases hall : s.allReady with
    | fulfilled values => exact hfulfilled values hpending hall
    | rejected err => exact hrejected err hpending hall
    | pending => exact Promise.all_settled hps hall

theorem waitEnds_of_settlesInTime {events : List Event}
    (h : ∀ role, SettlesInTime events role) : WaitEnds events := by
  have hsettled : ∀ role, ((stateAfter events).waiting role).promise.Settled := by
    intro role
    rw [h role]
    split <;> simp
  have hreturns : (stateAfter (events ++ [.resume])).context.Settled := by
    rw [stateAfter_append_singleton]
    exact resume_settled hsettled
  refine ⟨h, hreturns, ?_⟩
  have hfollows := follows (events ++ [.resume])
  have hwaiting : ∀ role, ((stateAfter (events ++ [.resume])).waiting role).promise =
      ((stateAfter events).waiting role).promise := by
    intro role
    rw [stateAfter_append_singleton, step_waiting]
    rfl
  rw [start_settled hreturns, storeInTime]
  congr 1
  by_cases hall : ∀ role, .ready role ∈ firstFiveSeconds events
  · rw [if_pos hall]
    cases hcontext : (stateAfter (events ++ [.resume])).context with
    | pending => exact absurd hcontext hreturns
    | fulfilled value => rfl
    | rejected err =>
      obtain ⟨role, reason, hp⟩ := hfollows.rejected err hcontext
      rw [hwaiting, h role, if_pos (hall role)] at hp
      cases hp
  · rw [if_neg hall, if_neg]
    intro hcontext
    refine hall fun role => ?_
    by_contra hnot
    have hp := hfollows.fulfilled hcontext role
    rw [hwaiting, h role, if_neg hnot] at hp
    cases hp

/-- The wait ends as promised exactly if each client that reports an error within the five
seconds is also ready within them. -/
theorem waitEnds_iff (events : List Event) (hfive : 5000 ≤ elapsed events) :
    WaitEnds events ↔ ∀ role,
      .ready role ∈ firstFiveSeconds events ∨ .error role ∉ firstFiveSeconds events := by
  constructor
  · intro h role
    exact (settlesInTime_iff role hfive).mp (h.settles role)
  · intro h
    exact waitEnds_of_settlesInTime fun role => (settlesInTime_iff role hfive).mpr (h role)

/-- The publisher reports an error before it is ready, the subscriber is ready at once, and
nothing is heard of the third client. -/
def recovered : List Event :=
  [.error .pub, .ready .sub, .ready .pub] ++ List.replicate 5000 .elapse

theorem waitEnds_recovered : 5000 ≤ elapsed recovered ∧ WaitEnds recovered := by
  have hfive : 5000 ≤ elapsed recovered := by
    rw [elapsed, recovered, List.count_append, List.count_replicate_self]
    exact Nat.le_add_left 5000 _
  have hfirst : ∃ rest, firstFiveSeconds recovered =
      .error .pub :: .ready .sub :: .ready .pub :: rest := ⟨_, rfl⟩
  obtain ⟨rest, hfirst⟩ := hfirst
  refine ⟨hfive, (waitEnds_iff recovered hfive).mpr fun role => ?_⟩
  cases role with
  | pub => exact .inl (by simp [hfirst])
  | sub => exact .inl (by simp [hfirst])
  | presence =>
    refine .inr fun hmem => ?_
    rcases List.mem_append.mp (mem_of_mem_within hmem) with hheard | helapse
    · simp at hheard
    · cases List.eq_of_mem_replicate helapse

/-- Redis refuses the connections, and `n` milliseconds pass. -/
def refused (n : ℕ) : List Event :=
  [.error .pub, .error .sub, .error .presence] ++ List.replicate n .elapse

section Refused

variable {n : ℕ}

theorem elapsed_refused (n : ℕ) : elapsed (refused n) = n := by
  rw [elapsed, refused, List.count_append, List.count_replicate_self]
  exact Nat.zero_add n

theorem ready_not_mem_refused (role : Role) : .ready role ∉ refused n := by
  intro hmem
  rcases List.mem_append.mp hmem with herrors | helapse
  · simp at herrors
  · cases List.eq_of_mem_replicate helapse

theorem error_mem_refused (role : Role) : .error role ∈ firstFiveSeconds (refused n) := by
  have hfirst : ∃ rest, firstFiveSeconds (refused n) =
      .error .pub :: .error .sub :: .error .presence :: rest := ⟨_, rfl⟩
  obtain ⟨rest, hfirst⟩ := hfirst
  rw [hfirst]
  cases role <;> simp

theorem refused_pending (h : 5000 ≤ n) (role : Role) :
    ((stateAfter (refused n)).waiting role).promise = .pending := by
  have hfive : 5000 ≤ elapsed (refused n) := (elapsed_refused n).symm ▸ h
  have hnotReady : .ready role ∉ firstFiveSeconds (refused n) := fun hmem =>
    ready_not_mem_refused role (mem_of_mem_within hmem)
  rw [(waiting_over role hfive).promise, if_neg hnotReady,
    if_neg (not_not_intro (error_mem_refused role)), if_neg (ready_not_mem_refused role)]

/-- `start` is kept waiting however long it takes. -/
theorem refused_start (h : 5000 ≤ n) :
    start (stateAfter (refused n ++ [.resume])).context = none := by
  have hcontext : (stateAfter (refused n)).context = .pending := by
    cases hcontext : (stateAfter (refused n)).context with
    | pending => rfl
    | fulfilled value =>
      have hp := (follows (refused n)).fulfilled hcontext .pub
      rw [refused_pending h] at hp
      cases hp
    | rejected err =>
      obtain ⟨role, reason, hp⟩ := (follows (refused n)).rejected err hcontext
      rw [refused_pending h] at hp
      cases hp
  have hall : (stateAfter (refused n)).allReady = .pending := by
    simp only [State.allReady, refused_pending h, Promise.all]
  have hresume : (stateAfter (refused n)).resume = stateAfter (refused n) := by
    simp only [State.resume, hcontext, hall]
  rw [stateAfter_append_singleton, State.step, hresume, hcontext]
  rfl

end Refused

theorem refused_waits : 5000 ≤ elapsed (refused 5000) ∧ ¬ WaitEnds (refused 5000) ∧
    start (stateAfter (refused 5000 ++ [.resume])).context = none := by
  refine ⟨(elapsed_refused 5000).ge, fun h => ?_, refused_start (Nat.le_refl _)⟩
  have hstarts := h.starts
  rw [refused_start (Nat.le_refl _)] at hstarts
  cases hstarts

end ChatMicroservices.RedisReadiness

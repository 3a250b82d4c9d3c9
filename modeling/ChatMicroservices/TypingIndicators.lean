import ChatMicroservices.EventAudience
import ChatMicroservices.InsertionMaps
import ChatMicroservices.Transcripts

/-!
# Runs of typing indicators

Typing events, delivered messages, disconnects, expiring timers and compactions in any order.
The map and the armed timers stay in step, so a user has at most one timer; whatever is said
about another receiver, or about none, clears it.
-/

namespace ChatMicroservices.TypingIndicators
open JavaScriptValues EffectPrograms InsertionMaps Transcripts MessagesTable ChatEffects
open SocketHandlers SendMessageRuns EventAudience

/-- The interval rebuilds `typingTimeouts` from its own entries. -/
def compact (t : TypingTimers) : TypingTimers :=
  { t with typingTimeouts := (InsertionMap.empty.setAll t.typingTimeouts).rows }

/-- A timeout is no longer armed when its callback is called. -/
def fire (t : TypingTimers) (handle : ℕ) : TypingTimers :=
  { t with armed := t.armed.filter fun timer => timer.handle ≠ handle }

/-- The entries of the map and the armed timers belong to each other. -/
structure Tidy (t : TypingTimers) : Prop where
  keys : (t.typingTimeouts.map Prod.fst).Nodup
  handles : (t.armed.map Timer.handle).Nodup
  entry : ∀ timer ∈ t.armed, (timer.userId, timer.handle) ∈ t.typingTimeouts
  timer : ∀ e ∈ t.typingTimeouts, ∃ timer ∈ t.armed, (timer.userId, timer.handle) = e
  issued : ∀ timer ∈ t.armed, timer.handle < t.nextHandle

theorem tidy_empty : Tidy TypingTimers.empty where
  keys := List.nodup_nil
  handles := List.nodup_nil
  entry := by simp [TypingTimers.empty]
  timer := by simp [TypingTimers.empty]
  issued := by simp [TypingTimers.empty]

section Timers

variable {t : TypingTimers}

theorem Tidy.timer_eq (h : Tidy t) {a b : Timer} (ha : a ∈ t.armed) (hb : b ∈ t.armed)
    (hab : a.handle = b.handle) : a = b := List.inj_on_of_nodup_map h.handles ha hb hab

/-- A user has at most one armed timer. -/
theorem Tidy.timer_unique (h : Tidy t) {a b : Timer} (ha : a ∈ t.armed) (hb : b ∈ t.armed)
    (hab : a.userId = b.userId) : a = b := by
  have hentry : (a.userId, a.handle) = (b.userId, b.handle) :=
    List.inj_on_of_nodup_map h.keys (h.entry a ha) (h.entry b hb) hab
  exact h.timer_eq ha hb (congrArg Prod.snd hentry)

theorem Tidy.entry_iff (h : Tidy t) {a : Timer} (ha : a ∈ t.armed) {userId : JsString} :
    (userId, a.handle) ∈ t.typingTimeouts ↔ a.userId = userId := by
  constructor
  · intro hmem
    obtain ⟨b, hb, hentry⟩ := h.timer _ hmem
    obtain ⟨hu, hhandle⟩ := Prod.mk.inj hentry
    rw [← h.timer_eq hb ha hhandle, hu]
  · rintro rfl
    exact h.entry a ha

theorem Tidy.clear_armed (h : Tidy t) (userId : JsString) :
    (t.clear userId).armed = t.armed.filter fun timer => timer.userId ≠ userId := by
  refine List.filter_congr fun timer htimer => ?_
  rw [decide_eq_decide, not_iff_not]
  exact h.entry_iff htimer

theorem Tidy.has_iff (h : Tidy t) {userId : JsString} :
    t.has userId = true ↔ ∃ timer ∈ t.armed, timer.userId = userId := by
  rw [TypingTimers.has, List.any_eq_true]
  constructor
  · rintro ⟨e, he, hu⟩
    obtain ⟨timer, htimer, rfl⟩ := h.timer e he
    exact ⟨timer, htimer, of_decide_eq_true hu⟩
  · rintro ⟨timer, htimer, hu⟩
    exact ⟨_, h.entry timer htimer, decide_eq_true hu⟩

/-- Without the entry and the timer of one user the rest is as it was. -/
theorem Tidy.without (h : Tidy t) (userId : JsString) :
    Tidy ⟨t.typingTimeouts.filter fun e => e.1 ≠ userId,
      t.armed.filter fun timer => timer.userId ≠ userId, t.nextHandle⟩ where
  keys := h.keys.sublist (List.filter_sublist.map _)
  handles := h.handles.sublist (List.filter_sublist.map _)
  entry := by
    intro timer htimer
    obtain ⟨hmem, hne⟩ := List.mem_filter.mp htimer
    exact List.mem_filter.mpr ⟨h.entry timer hmem, by simpa using hne⟩
  timer := by
    intro e he
    obtain ⟨hmem, hne⟩ := List.mem_filter.mp he
    obtain ⟨timer, htimer, rfl⟩ := h.timer e hmem
    exact ⟨timer, List.mem_filter.mpr ⟨htimer, by simpa using hne⟩, rfl⟩
  issued := fun timer htimer => h.issued timer (List.mem_filter.mp htimer).1

theorem Tidy.clear_eq (h : Tidy t) (userId : JsString) :
    t.clear userId = ⟨t.typingTimeouts.filter fun e => e.1 ≠ userId,
      t.armed.filter fun timer => timer.userId ≠ userId, t.nextHandle⟩ := by
  have harmed := h.clear_armed userId
  rw [← harmed]
  rfl

/-- Clearing the timer of a user, whether there is one or not. -/
theorem Tidy.typingCleared {τ : Type} {w : World τ} (h : Tidy w.typing) (userId : JsString) :
    (typingCleared w userId).typing = ⟨w.typing.typingTimeouts.filter fun e => e.1 ≠ userId,
      w.typing.armed.filter fun timer => timer.userId ≠ userId, w.typing.nextHandle⟩ := by
  unfold SendMessageRuns.typingCleared
  split
  · exact h.clear_eq userId
  · rename_i hhas
    have hnone : ∀ timer ∈ w.typing.armed, timer.userId ≠ userId := fun timer htimer hu =>
      hhas (h.has_iff.mpr ⟨timer, htimer, hu⟩)
    have hentries : ∀ e ∈ w.typing.typingTimeouts, e.1 ≠ userId := by
      intro e he hu
      obtain ⟨timer, htimer, rfl⟩ := h.timer e he
      exact hnone timer htimer hu
    rw [List.filter_eq_self.mpr fun e he => decide_eq_true (hentries e he),
      List.filter_eq_self.mpr fun timer htimer => decide_eq_true (hnone timer htimer)]

/-- A user without a timer gets a new one. -/
theorem Tidy.arm (h : Tidy t) {userId : JsString} (receiverId : Value)
    (hnone : ∀ timer ∈ t.armed, timer.userId ≠ userId) : Tidy (t.arm userId receiverId) where
  keys := by
    have hrest : ((t.typingTimeouts.filter fun e => e.1 ≠ userId).map Prod.fst).Nodup :=
      h.keys.sublist (List.filter_sublist.map _)
    rw [TypingTimers.arm, List.map_append, List.nodup_append]
    refine ⟨hrest, List.nodup_singleton _, ?_⟩
    intro u hu v hv
    obtain ⟨e, he, rfl⟩ := List.mem_map.mp hu
    obtain rfl : v = userId := by simpa using hv
    simpa using (List.mem_filter.mp he).2
  handles := by
    rw [TypingTimers.arm, List.map_append, List.nodup_append]
    refine ⟨h.handles, List.nodup_singleton _, ?_⟩
    intro a ha b hb
    obtain ⟨timer, htimer, rfl⟩ := List.mem_map.mp ha
    obtain rfl : b = t.nextHandle := by simpa using hb
    have hlt := h.issued timer htimer
    omega
  entry := by
    intro timer htimer
    rcases List.mem_append.mp htimer with hold | hnew
    · refine List.mem_append_left _ (List.mem_filter.mpr ⟨h.entry timer hold, ?_⟩)
      exact decide_eq_true (hnone timer hold)
    · obtain rfl := List.mem_singleton.mp hnew
      exact List.mem_append_right _ (List.mem_singleton.mpr rfl)
  timer := by
    intro e he
    rcases List.mem_append.mp he with hold | hnew
    · obtain ⟨timer, htimer, rfl⟩ := h.timer e (List.mem_filter.mp hold).1
      exact ⟨timer, List.mem_append_left _ htimer, rfl⟩
    · obtain rfl := List.mem_singleton.mp hnew
      exact ⟨_, List.mem_append_right _ (List.mem_singleton.mpr rfl), rfl⟩
  issued := by
    intro timer htimer
    rcases List.mem_append.mp htimer with hold | hnew
    · exact Nat.lt_succ_of_lt (h.issued timer hold)
    · obtain rfl := List.mem_singleton.mp hnew
      exact Nat.lt_succ_self _

theorem Tidy.compact (h : Tidy t) : TypingIndicators.compact t = t := by
  have hrows : (InsertionMap.empty.setAll t.typingTimeouts).rows = t.typingTimeouts :=
    InsertionMap.setAll_rows h.keys
  rw [TypingIndicators.compact, hrows]

/-- A timer that fires takes its own entry with it. -/
theorem Tidy.fire (h : Tidy t) {timer : Timer} (htimer : timer ∈ t.armed) :
    (TypingIndicators.fire t timer.handle).delete timer.userId =
      ⟨t.typingTimeouts.filter fun e => e.1 ≠ timer.userId,
        t.armed.filter fun other => other.userId ≠ timer.userId, t.nextHandle⟩ := by
  have harmed : (t.armed.filter fun other => other.handle ≠ timer.handle) =
      t.armed.filter fun other => other.userId ≠ timer.userId := by
    refine List.filter_congr fun other hother => ?_
    rw [decide_eq_decide, not_iff_not]
    constructor
    · intro hhandle
      rw [h.timer_eq hother htimer hhandle]
    · intro hu
      rw [h.timer_unique hother htimer hu]
  rw [TypingIndicators.fire, TypingTimers.delete, harmed]

end Timers

/-- What happens between two awaits of the service, as far as typing is concerned. A delivered
message is the tail of an accepted `sendMessage` event. -/
inductive Event where
  | typing (user : AuthUser) (args : List Value)
  | message (user : AuthUser) (receiverId : Value) (msg : Message) (ack : Value)
  | disconnect (user : AuthUser) (socketId : JsString)
  | expire (handle : ℕ)
  | compact

namespace Event

def program (t : TypingTimers) : Event → Handler Unit
  | typing user args => listener user .typing args
  | message user receiverId msg ack => deliver user receiverId msg ack
  | disconnect user socketId => handleDisconnect user.id socketId
  | expire handle =>
    match t.armed.find? fun timer => timer.handle = handle with
    | some timer => typingTimeout timer.userId timer.receiverId
    | none => pure ()
  | compact => pure ()

/-- What the event loop does before it runs the program. -/
def prepare (t : TypingTimers) : Event → TypingTimers
  | expire handle => fire t handle
  | compact => TypingIndicators.compact t
  | typing _ _ | message _ _ _ _ | disconnect _ _ => t

end Event

section Steps

variable {τ : Type} (repo : Repository τ)

/-- The effects of an event that happens in given surroundings, and the world it leaves. -/
def step (w : World τ) (happening : Surroundings × Event) : List Op × World τ :=
  let program := happening.2.program w.typing
  let start := { w with typing := happening.2.prepare w.typing }
  (effects (program.trace (exec repo happening.1) start),
    (program.run (exec repo happening.1) start).2)

end Steps

/-- What an event does to the timer and to the receivers of a user's typing indicator. -/
inductive Signal where
  | starts (userId : JsString) (room : Value)
  | stops (userId : JsString) (room : Value)
  | drops (userId : JsString)
  | nothing

instance (room : Value) (user : AuthUser) : Decidable (Reaches room user) := by
  unfold Reaches
  split <;> infer_instance

namespace Signal

/-- What a reader hears about a user. -/
def heard (reader : AuthUser) (userId : JsString) : Signal → List Bool
  | starts u room => if u = userId ∧ Reaches room reader then [true] else []
  | stops u room => if u = userId ∧ Reaches room reader then [false] else []
  | drops _ | nothing => []

def armed (t : TypingTimers) : Signal → List Timer
  | starts u room => t.armed.filter (fun timer => timer.userId ≠ u) ++ [⟨t.nextHandle, u, room⟩]
  | stops u _ | drops u => t.armed.filter fun timer => timer.userId ≠ u
  | nothing => t.armed

end Signal

def Event.signal (t : TypingTimers) : Event → Signal
  | typing user args =>
    if (argument args 0).Nullish then .nothing
    else if ((argument args 0).field "isTyping").truthy then
      .starts user.id ((argument args 0).field "receiverId")
    else .stops user.id ((argument args 0).field "receiverId")
  | message user receiverId _ _ => .stops user.id receiverId
  | disconnect user _ => .drops user.id
  | expire handle =>
    match t.armed.find? fun timer => timer.handle = handle with
    | some timer => .stops timer.userId timer.receiverId
    | none => .nothing
  | compact => .nothing

/-- The typing event about a user that an effect brings to a reader. -/
def heard (reader : AuthUser) (userId : JsString) : Op → Option Bool
  | .emit room (.typing u isTyping) =>
    if u = userId ∧ Reaches room reader then some isTyping else none
  | _ => none

section Spec

variable {τ : Type} {repo : Repository τ} {w : World τ}

theorem heard_clearing (reader : AuthUser) (u : JsString) (w : World τ) (userId : JsString) :
    (effects (clearingTrace w userId)).filterMap (heard reader u) = [] := by
  unfold clearingTrace
  split <;> rfl

theorem heard_ackEffects (reader : AuthUser) (u : JsString) (ack : Value) (res : AckResult) :
    (ackEffects ack res).filterMap (heard reader u) = [] := by
  unfold ackEffects
  split <;> rfl

/-- Every event does what its signal says, and keeps map and timers in step. -/
structure Follows (t : TypingTimers) (signal : Signal) (ops : List Op) (t' : TypingTimers) :
    Prop where
  tidy : Tidy t'
  armed : t'.armed = signal.armed t
  heard : ∀ reader u, ops.filterMap (heard reader u) = signal.heard reader u

def armedFor (w : World τ) (userId : JsString) (receiverId : Value) : World τ :=
  { w with typing := w.typing.arm userId receiverId }

/-- A typing event of which nothing can be read does nothing here. -/
theorem typing_nullish (here : Surroundings) (user : AuthUser) {args : List Value}
    (hd : (argument args 0).Nullish) : step repo w (here, .typing user args) =
      ([.uncaughtException ((argument args 0).destructureError "data" "receiverId")], w) := by
  simp [step, Event.program, Event.prepare, listener, uncaught, handleTyping, readField,
    Value.destructure_of_nullish hd, perform, exec]

theorem typing_starts (here : Surroundings) (user : AuthUser) {args : List Value}
    (hd : ¬ (argument args 0).Nullish)
    (ht : ((argument args 0).field "isTyping").truthy = true) :
    step repo w (here, .typing user args) =
      (effects (clearingTrace w user.id) ++
        [.emit ((argument args 0).field "receiverId") (.typing user.id true),
          .armTyping user.id ((argument args 0).field "receiverId")],
        armedFor (typingCleared w user.id) user.id ((argument args 0).field "receiverId")) := by
  simp [step, Event.program, Event.prepare, listener, uncaught, handleTyping, readField,
    Value.destructure_of_not_nullish hd, ht, Program.run_tryCatch, Program.trace_tryCatch,
    Program.run_bind, Program.trace_bind, clearTypingTimeout_run, clearTypingTimeout_trace,
    perform, exec, armedFor]

theorem typing_stops (here : Surroundings) (user : AuthUser) {args : List Value}
    (hd : ¬ (argument args 0).Nullish)
    (ht : ((argument args 0).field "isTyping").truthy = false) :
    step repo w (here, .typing user args) =
      (effects (clearingTrace w user.id) ++
        [.emit ((argument args 0).field "receiverId") (.typing user.id false)],
        typingCleared w user.id) := by
  simp [step, Event.program, Event.prepare, listener, uncaught, handleTyping, readField,
    Value.destructure_of_not_nullish hd, ht, Program.run_tryCatch, Program.trace_tryCatch,
    Program.run_bind, Program.trace_bind, clearTypingTimeout_run, clearTypingTimeout_trace,
    perform, exec]

theorem message_step (here : Surroundings) (user : AuthUser) (receiverId : Value)
    (msg : Message) (ack : Value) : step repo w (here, .message user receiverId msg ack) =
      (effects (clearingTrace w user.id) ++ deliveryEffects user receiverId msg ack,
        typingCleared w user.id) := by
  simp [step, Event.program, Event.prepare, deliver_trace, deliver_state]

theorem disconnect_step (here : Surroundings) (user : AuthUser) (socketId : JsString) :
    step repo w (here, .disconnect user socketId) =
      (effects (clearingTrace w user.id) ++ .disconnectPresence user.id socketId ::
        (if here.isLast user.id socketId then
          [.currentTime, .emitToAll (.presence user.id false (some here.now))] else []),
        typingCleared w user.id) := by
  by_cases hlast : here.isLast user.id socketId = true
  · simp [step, Event.program, Event.prepare, handleDisconnect, Program.run_bind,
      Program.trace_bind, clearTypingTimeout_run, clearTypingTimeout_trace, perform, exec, hlast]
  · simp [step, Event.program, Event.prepare, handleDisconnect, Program.run_bind,
      Program.trace_bind, clearTypingTimeout_run, clearTypingTimeout_trace, perform, exec, hlast]

theorem find_timer {t : TypingTimers} (h : Tidy t) {timer : Timer} (htimer : timer ∈ t.armed) :
    t.armed.find? (fun other => other.handle = timer.handle) = some timer := by
  cases hfind : t.armed.find? fun other => other.handle = timer.handle with
  | none =>
    have hne := List.find?_eq_none.mp hfind timer htimer
    simp at hne
  | some other =>
    have hother : other.handle = timer.handle := by simpa using List.find?_some hfind
    rw [h.timer_eq (List.mem_of_find?_eq_some hfind) htimer hother]

theorem expire_step (here : Surroundings) {timer : Timer} (h : Tidy w.typing)
    (htimer : timer ∈ w.typing.armed) : step repo w (here, .expire timer.handle) =
      ([.emit timer.receiverId (.typing timer.userId false), .deleteTyping timer.userId],
        { w with typing := (fire w.typing timer.handle).delete timer.userId }) := by
  simp [step, Event.program, Event.prepare, find_timer h htimer, typingTimeout, perform, exec]

/-- A timer that is not armed does not fire. -/
theorem expire_unarmed (here : Surroundings) {handle : ℕ}
    (hnot : ∀ timer ∈ w.typing.armed, timer.handle ≠ handle) :
    step repo w (here, .expire handle) = ([], w) := by
  have hfind : (w.typing.armed.find? fun timer => timer.handle = handle) = none :=
    List.find?_eq_none.mpr fun timer htimer => by simpa using hnot timer htimer
  have hfire : fire w.typing handle = w.typing := by
    rw [fire, List.filter_eq_self.mpr]
    exact fun timer htimer => decide_eq_true (hnot timer htimer)
  simp [step, Event.program, Event.prepare, hfind, hfire]

/-- The timer of a user is cleared, and the rest of the event tells the readers about it. -/
theorem follows_cleared (h : Tidy w.typing) {user : AuthUser} {signal : Signal} {ops : List Op}
    (harmed : signal.armed w.typing = w.typing.armed.filter fun timer => timer.userId ≠ user.id)
    (hheard : ∀ reader u, ops.filterMap (heard reader u) = signal.heard reader u) :
    Follows w.typing signal (effects (clearingTrace w user.id) ++ ops)
      (typingCleared w user.id).typing := by
  have hwithout := h.without user.id
  refine ⟨?_, ?_, fun reader u => ?_⟩
  · rw [h.typingCleared]
    exact hwithout
  · rw [h.typingCleared, harmed]
  · rw [List.filterMap_append, heard_clearing, List.nil_append, hheard]

theorem typing_follows (h : Tidy w.typing) (here : Surroundings) (user : AuthUser)
    (args : List Value) :
    Follows w.typing ((Event.typing user args).signal w.typing)
      (step repo w (here, .typing user args)).1
      (step repo w (here, .typing user args)).2.typing := by
  by_cases hd : (argument args 0).Nullish
  · rw [typing_nullish here user hd, Event.signal, if_pos hd]
    exact ⟨h, rfl, fun _ _ => rfl⟩
  · rw [Event.signal, if_neg hd]
    by_cases ht : ((argument args 0).field "isTyping").truthy = true
    · rw [typing_starts here user hd ht, if_pos ht]
      have hcleared := h.typingCleared user.id
      have hwithout := h.without user.id
      rw [← hcleared] at hwithout
      refine ⟨hwithout.arm _ fun timer htimer => ?_, ?_, fun reader u => ?_⟩
      · rw [hcleared] at htimer
        simpa using (List.mem_filter.mp htimer).2
      · rw [armedFor, TypingTimers.arm, hcleared]
        rfl
      · rw [List.filterMap_append, heard_clearing]
        by_cases hu : user.id = u ∧ Reaches ((argument args 0).field "receiverId") reader <;>
          simp [heard, Signal.heard, hu]
    · rw [typing_stops here user hd (by simpa using ht), if_neg ht]
      refine follows_cleared h rfl fun reader u => ?_
      by_cases hu : user.id = u ∧ Reaches ((argument args 0).field "receiverId") reader <;>
        simp [heard, Signal.heard, hu]

theorem step_follows (h : Tidy w.typing) (happening : Surroundings × Event) :
    Follows w.typing (happening.2.signal w.typing) (step repo w happening).1
      (step repo w happening).2.typing := by
  obtain ⟨here, event⟩ := happening
  cases event with
  | typing user args => exact typing_follows h here user args
  | message user receiverId msg ack =>
    rw [message_step]
    refine follows_cleared h rfl fun reader u => ?_
    rw [deliveryEffects, List.filterMap_append, heard_ackEffects]
    by_cases hu : user.id = u ∧ Reaches receiverId reader <;>
      simp [heard, Signal.heard, Event.signal, hu]
  | disconnect user socketId =>
    rw [disconnect_step]
    refine follows_cleared h rfl fun reader u => ?_
    cases here.isLast user.id socketId <;> rfl
  | expire handle =>
    cases hfind : w.typing.armed.find? fun timer => timer.handle = handle with
    | none =>
      have hnot : ∀ timer ∈ w.typing.armed, timer.handle ≠ handle := fun timer htimer => by
        simpa using List.find?_eq_none.mp hfind timer htimer
      rw [expire_unarmed here hnot]
      simp only [Event.signal, hfind]
      exact ⟨h, rfl, fun _ _ => rfl⟩
    | some timer =>
      have htimer := List.mem_of_find?_eq_some hfind
      obtain rfl : timer.handle = handle := by simpa using List.find?_some hfind
      have hsignal : (Event.expire timer.handle).signal w.typing =
          .stops timer.userId timer.receiverId := by
        simp only [Event.signal, hfind]
      rw [expire_step here h htimer, hsignal]
      have hfire := h.fire htimer
      refine ⟨?_, ?_, fun reader u => ?_⟩
      · rw [hfire]
        exact h.without timer.userId
      · rw [hfire]
        rfl
      · by_cases hu : timer.userId = u ∧ Reaches timer.receiverId reader <;>
          simp [heard, Signal.heard, hu]
  | compact =>
    have hcompact : (step repo w (here, .compact)) = ([], w) := by
      simp [step, Event.program, Event.prepare, h.compact]
    rw [hcompact]
    exact ⟨h, rfl, fun _ _ => rfl⟩

end Spec

/-- The last typing event about a user among some effects that a reader received. -/
def lastTyping (reader : AuthUser) (userId : JsString) (log : List Op) : Option Bool :=
  (log.filterMap (heard reader userId)).getLast?

theorem lastTyping_append (reader : AuthUser) (u : JsString) (log ops : List Op) :
    lastTyping reader u (log ++ ops) =
      (ops.filterMap (heard reader u)).getLast?.or (lastTyping reader u log) := by
  rw [lastTyping, List.filterMap_append, List.getLast?_append, lastTyping]

section Runs

variable {τ : Type} (repo : Repository τ)

/-- The world after some events, and all effects up to then. -/
def worldAfter (w : World τ) (run : List (Surroundings × Event)) : World τ :=
  after (step repo) w run

def logAfter (w : World τ) (run : List (Surroundings × Event)) : List Op :=
  (answers (step repo) w run).flatten

/-- The expiry of the timer tells the reader that the user has stopped typing. -/
def Silences (w : World τ) (timer : Timer) (reader : AuthUser) (userId : JsString) : Prop :=
  ∀ here, (step repo w (here, .expire timer.handle)).1.filterMap (heard reader userId) = [false]

/-- Whoever has heard last that a user is typing will hear from an armed timer. -/
def NoneStuck (w : World τ) (run : List (Surroundings × Event)) : Prop :=
  ∀ reader u, lastTyping reader u (logAfter repo w run) = some true →
    ∃ timer ∈ (worldAfter repo w run).typing.armed,
      Silences repo (worldAfter repo w run) timer reader u

/-- The event that clears the timer of a user goes to everyone who is waiting for it. -/
def Covers (t : TypingTimers) (event : Event) : Prop :=
  match event.signal t with
  | .starts u room | .stops u room => ∀ timer ∈ t.armed, timer.userId = u →
      ∀ reader, Reaches timer.receiverId reader → Reaches room reader
  | .drops u => ∀ timer ∈ t.armed, timer.userId = u →
      ∀ reader, ¬ Reaches timer.receiverId reader
  | .nothing => True

variable {repo} {w : World τ}

theorem silences_iff (h : Tidy w.typing) {timer : Timer} (htimer : timer ∈ w.typing.armed)
    (reader : AuthUser) (u : JsString) :
    Silences repo w timer reader u ↔ timer.userId = u ∧ Reaches timer.receiverId reader := by
  constructor
  · intro hs
    have hheard := hs quiet
    rw [expire_step quiet h htimer] at hheard
    by_contra hu
    have hnothing : [Op.emit timer.receiverId (.typing timer.userId false),
        .deleteTyping timer.userId].filterMap (heard reader u) = [] := by
      simp only [List.filterMap_cons, heard, hu, if_false, List.filterMap_nil]
    rw [hnothing] at hheard
    cases hheard
  · intro hu here
    rw [expire_step here h htimer]
    simp [heard, hu]

theorem worldAfter_concat (run : List (Surroundings × Event)) (e : Surroundings × Event) :
    worldAfter repo w (run ++ [e]) = (step repo (worldAfter repo w run) e).2 := by
  simp [worldAfter]

theorem logAfter_concat (run : List (Surroundings × Event)) (e : Surroundings × Event) :
    logAfter repo w (run ++ [e]) =
      logAfter repo w run ++ (step repo (worldAfter repo w run) e).1 := by
  simp [logAfter, worldAfter, answers_append, answers]

/-- Map and timers are in step, and everyone a timer reaches has last heard of typing. -/
structure Pending (t : TypingTimers) (log : List Op) : Prop where
  tidy : Tidy t
  waiting : ∀ timer ∈ t.armed, ∀ reader, Reaches timer.receiverId reader →
    lastTyping reader timer.userId log = some true

theorem Pending.follows {t t' : TypingTimers} {signal : Signal} {log ops : List Op}
    (h : Pending t log) (hfollows : Follows t signal ops t') : Pending t' (log ++ ops) := by
  refine ⟨hfollows.tidy, fun timer htimer reader hreader => ?_⟩
  rw [lastTyping_append, hfollows.heard]
  rw [hfollows.armed] at htimer
  cases signal with
  | starts u room =>
    rcases List.mem_append.mp htimer with hold | hnew
    · obtain ⟨hmem, hne⟩ := List.mem_filter.mp hold
      have hu : u ≠ timer.userId := fun hu => of_decide_eq_true hne hu.symm
      simpa [Signal.heard, hu] using h.waiting timer hmem reader hreader
    · obtain rfl := List.mem_singleton.mp hnew
      simp [Signal.heard, hreader]
  | stops u room =>
    obtain ⟨hmem, hne⟩ := List.mem_filter.mp htimer
    have hu : u ≠ timer.userId := fun hu => of_decide_eq_true hne hu.symm
    simpa [Signal.heard, hu] using h.waiting timer hmem reader hreader
  | drops u =>
    have hmem := (List.mem_filter.mp htimer).1
    exact h.waiting timer hmem reader hreader
  | nothing => exact h.waiting timer htimer reader hreader

theorem pending_after (h : Pending w.typing []) (run : List (Surroundings × Event)) :
    Pending (worldAfter repo w run).typing (logAfter repo w run) := by
  induction run using List.reverseRecOn with
  | nil => exact h
  | append_singleton run e ih =>
    rw [worldAfter_concat, logAfter_concat]
    exact ih.follows (step_follows ih.tidy e)

/-- Whoever has heard last that the user is typing is reached by an armed timer. -/
def Heeded (t : TypingTimers) (log : List Op) : Prop :=
  ∀ reader u, lastTyping reader u log = some true →
    ∃ timer ∈ t.armed, timer.userId = u ∧ Reaches timer.receiverId reader

theorem noneStuck_iff_heeded (h : Pending w.typing []) (run : List (Surroundings × Event)) :
    NoneStuck repo w run ↔ Heeded (worldAfter repo w run).typing (logAfter repo w run) := by
  have htidy : Tidy (worldAfter repo w run).typing := (pending_after h run).tidy
  refine forall_congr' fun reader => forall_congr' fun u => imp_congr_right fun _ => ?_
  exact exists_congr fun timer => and_congr_right fun htimer => silences_iff htidy htimer reader u

/-- An event that covers the waiting receivers leaves nobody stuck. -/
theorem Heeded.follows {t t' : TypingTimers} {event : Event} {log ops : List Op}
    (h : Heeded t log) (hcovers : Covers t event)
    (hfollows : Follows t (event.signal t) ops t') : Heeded t' (log ++ ops) := by
  intro reader u hlast
  rw [lastTyping_append, hfollows.heard] at hlast
  rw [hfollows.armed]
  unfold Covers at hcovers
  cases hsignal : event.signal t with
  | starts v room =>
    simp only [hsignal] at hcovers hlast ⊢
    by_cases hv : v = u ∧ Reaches room reader
    · exact ⟨_, List.mem_append_right _ (List.mem_singleton.mpr rfl), hv⟩
    · obtain ⟨timer, htimer, hu, hreader⟩ := h reader u (by simpa [Signal.heard, hv] using hlast)
      have hne : timer.userId ≠ v := fun heq =>
        hv ⟨heq.symm.trans hu, hcovers timer htimer heq reader hreader⟩
      have hkept : timer ∈ t.armed.filter fun timer => timer.userId ≠ v :=
        List.mem_filter.mpr ⟨htimer, decide_eq_true hne⟩
      exact ⟨timer, List.mem_append_left _ hkept, hu, hreader⟩
  | stops v room =>
    simp only [hsignal] at hcovers hlast ⊢
    by_cases hv : v = u ∧ Reaches room reader
    · simp [Signal.heard, hv] at hlast
    · obtain ⟨timer, htimer, hu, hreader⟩ := h reader u (by simpa [Signal.heard, hv] using hlast)
      have hne : timer.userId ≠ v := fun heq =>
        hv ⟨heq.symm.trans hu, hcovers timer htimer heq reader hreader⟩
      exact ⟨timer, List.mem_filter.mpr ⟨htimer, decide_eq_true hne⟩, hu, hreader⟩
  | drops v =>
    simp only [hsignal] at hcovers hlast ⊢
    obtain ⟨timer, htimer, hu, hreader⟩ := h reader u hlast
    have hne : timer.userId ≠ v := fun heq => hcovers timer htimer heq reader hreader
    exact ⟨timer, List.mem_filter.mpr ⟨htimer, decide_eq_true hne⟩, hu, hreader⟩
  | nothing =>
    simp only [hsignal] at hlast ⊢
    exact h reader u hlast

/-- An event that leaves nobody stuck covers the waiting receivers. -/
theorem covers_of_heeded {t t' : TypingTimers} {event : Event} {log ops : List Op}
    (hpending : Pending t log) (hfollows : Follows t (event.signal t) ops t')
    (h : Heeded t' (log ++ ops)) : Covers t event := by
  unfold Covers
  cases hsignal : event.signal t with
  | starts u room =>
    intro timer htimer hu reader hreader
    by_contra hnot
    have hlast := hpending.waiting timer htimer reader hreader
    obtain ⟨other, hother, hou, hreach⟩ := h reader u (by
      rw [lastTyping_append, hfollows.heard, hsignal]
      simpa [Signal.heard, hnot] using hu ▸ hlast)
    rw [hfollows.armed, hsignal] at hother
    rcases List.mem_append.mp hother with hold | hnew
    · exact of_decide_eq_true (List.mem_filter.mp hold).2 hou
    · obtain rfl := List.mem_singleton.mp hnew
      exact hnot hreach
  | stops u room =>
    intro timer htimer hu reader hreader
    by_contra hnot
    have hlast := hpending.waiting timer htimer reader hreader
    obtain ⟨other, hother, hou, -⟩ := h reader u (by
      rw [lastTyping_append, hfollows.heard, hsignal]
      simpa [Signal.heard, hnot] using hu ▸ hlast)
    rw [hfollows.armed, hsignal] at hother
    exact of_decide_eq_true (List.mem_filter.mp hother).2 hou
  | drops u =>
    intro timer htimer hu reader hreader
    have hlast := hpending.waiting timer htimer reader hreader
    obtain ⟨other, hother, hou, -⟩ := h reader u (by
      rw [lastTyping_append, hfollows.heard, hsignal]
      simpa [Signal.heard] using hu ▸ hlast)
    rw [hfollows.armed, hsignal] at hother
    exact of_decide_eq_true (List.mem_filter.mp hother).2 hou
  | nothing => trivial

theorem heeded_of_covers (h : Pending w.typing []) {run : List (Surroundings × Event)}
    (hcovers : ∀ before e rest, run = before ++ e :: rest →
      Covers (worldAfter repo w before).typing e.2) :
    Heeded (worldAfter repo w run).typing (logAfter repo w run) := by
  induction run using List.reverseRecOn with
  | nil =>
    intro reader u hlast
    cases hlast
  | append_singleton run e ih =>
    have hbefore := ih fun before e' rest hsplit => by
      refine hcovers before e' (rest ++ [e]) ?_
      rw [hsplit, List.append_assoc, List.cons_append]
    rw [worldAfter_concat, logAfter_concat]
    have htidy : Tidy (worldAfter repo w run).typing := (pending_after h run).tidy
    exact hbefore.follows (hcovers run e [] rfl) (step_follows htidy e)

end Runs

/-- Nobody's typing indicator gets stuck in a run if and only if every event covers, when it
comes, the receivers of the timer that it clears. -/
theorem noneStuck_iff {τ : Type} (repo : Repository τ) (db : τ)
    (run : List (Surroundings × Event)) :
    (∀ history, history <+: run → NoneStuck repo ⟨db, TypingTimers.empty⟩ history) ↔
      ∀ before e rest, run = before ++ e :: rest →
        Covers (worldAfter repo ⟨db, TypingTimers.empty⟩ before).typing e.2 := by
  have hstart : Pending (⟨db, TypingTimers.empty⟩ : World τ).typing [] :=
    ⟨tidy_empty, by simp [TypingTimers.empty]⟩
  constructor
  · rintro h before e rest rfl
    have hprefix : before ++ [e] <+: before ++ e :: rest := ⟨rest, by simp⟩
    have hheeded := (noneStuck_iff_heeded hstart _).mp (h (before ++ [e]) hprefix)
    rw [worldAfter_concat, logAfter_concat] at hheeded
    have hpending : Pending (worldAfter repo ⟨db, TypingTimers.empty⟩ before).typing
        (logAfter repo ⟨db, TypingTimers.empty⟩ before) := pending_after hstart before
    exact covers_of_heeded hpending (step_follows hpending.tidy e) hheeded
  · rintro h history ⟨rest, rfl⟩
    refine (noneStuck_iff_heeded hstart history).mpr (heeded_of_covers hstart ?_)
    rintro before e after rfl
    exact h before e (after ++ rest) (by simp)

def typingTo (receiver : AuthUser) : Packet :=
  ⟨[.obj [(js "receiverId", .str receiver.id), (js "isTyping", .bool true)]], false⟩

def carol : AuthUser := ⟨js "carol", js "carol@example.com", js "carol", by decide⟩

/-- `alice` types to `bob`, and before her timer expires to `carol`. -/
def twoReceivers : List (Surroundings × Event) :=
  [(quiet, .typing alice (typingTo bob).arguments),
    (quiet, .typing alice (typingTo carol).arguments)]

/-- The second event clears the timer of the first, and `bob` is not told. -/
theorem bob_stuck : lastTyping bob alice.id
      (logAfter (postgres calm) World.empty twoReceivers) = some true ∧
    (worldAfter (postgres calm) World.empty twoReceivers).typing.armed =
      [⟨1, alice.id, .json (.str carol.id)⟩] ∧
    ¬ NoneStuck (postgres calm) World.empty twoReceivers := by
  have hlast : lastTyping bob alice.id
      (logAfter (postgres calm) World.empty twoReceivers) = some true := by decide
  have harmed : (worldAfter (postgres calm) World.empty twoReceivers).typing.armed =
      [⟨1, alice.id, .json (.str carol.id)⟩] := by decide
  refine ⟨hlast, harmed, fun h => ?_⟩
  obtain ⟨timer, htimer, hsilences⟩ := h bob alice.id hlast
  rw [harmed, List.mem_singleton] at htimer
  subst htimer
  exact absurd (hsilences quiet) (by decide)

end ChatMicroservices.TypingIndicators

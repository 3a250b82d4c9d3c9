import ChatMicroservices.RedisPresence

/-!
# Presence and the expiry of socket sets

The socket set of a user vanishes an hour after the last connect of the user, also when its
sockets are still connected; the set of online users never does. A disconnect that meets a
vanished set takes the last socket for granted.
-/

namespace ChatMicroservices.PresenceExpiry
open JavaScriptValues EffectPrograms RegisteredSets Transcripts PresenceStore
open RedisPresence (connected disconnected)

/-- Time is counted in milliseconds. -/
structure Server where
  sets : Sets
  deadline : JsString → Option ℕ
  now : ℕ

def fresh : Server := ⟨fun _ => ∅, fun _ => none, 0⟩

namespace Server

/-- `EXPIRE` sets the time to live of a key that exists, and a key loses it when its set
becomes empty. -/
def deadlineAfter (s : Server) : Op → JsString → Option ℕ
  | .expire key seconds =>
    if s.sets key = ∅ then s.deadline
    else Function.update s.deadline key (some (s.now + seconds * 1000))
  | .srem key member =>
    if (s.sets key).erase member = ∅ then Function.update s.deadline key none else s.deadline
  | _ => s.deadline

def Expired (s : Server) (key : JsString) : Prop := ∃ d, s.deadline key = some d ∧ d ≤ s.now

instance (s : Server) (key : JsString) : Decidable (s.Expired key) :=
  match h : s.deadline key with
  | none => isFalse fun ⟨_, hd, _⟩ => by simp [h] at hd
  | some d => decidable_of_iff (d ≤ s.now) (by simp [Expired, h])

/-- Keys vanish as soon as their time to live has passed. -/
def purge (s : Server) : Server where
  sets key := if s.Expired key then ∅ else s.sets key
  deadline key := if s.Expired key then none else s.deadline key
  now := s.now

end Server

/-- The commands act as without expiry on the keys that have not vanished. -/
def exec (op : Op) (s : Server) : Ans op × Server :=
  ((RedisPresence.exec op s.sets).1,
    { s with sets := (RedisPresence.exec op s.sets).2, deadline := s.deadlineAfter op })

/-- Calls are executed one at a time, and time passes between them. -/
inductive Event where
  | request (request : Request)
  | pass (milliseconds : ℕ)
  deriving DecidableEq

def step (s : Server) : Event → Option (Except JsError (Reply (Finset JsString))) × Server
  | .request request =>
    let (reply, s) := request.program.run exec s
    (some reply, s)
  | .pass milliseconds => (none, { s with now := s.now + milliseconds }.purge)

/-- Without looking at deadlines, a run is one on the sets. -/
theorem run_exec {α : Type} (p : Handler α) (s : Server) :
    (p.run exec s).1 = (p.run RedisPresence.exec s.sets).1 ∧
      (p.run exec s).2.sets = (p.run RedisPresence.exec s.sets).2 ∧
      (p.run exec s).2.now = s.now := by
  induction p generalizing s with
  | done r => exact ⟨rfl, rfl, rfl⟩
  | perform op next ih => exact ih _ (exec op s).2

theorem step_request (s : Server) (r : Request) :
    (step s (.request r)).1 = some (RedisPresence.step s.sets r).1 ∧
      (step s (.request r)).2.sets = (RedisPresence.step s.sets r).2 ∧
      (step s (.request r)).2.now = s.now := by
  obtain ⟨hreply, hsets, hnow⟩ := run_exec r.program s
  exact ⟨congrArg some hreply, hsets, hnow⟩

theorem sets_connect (s : Server) (u t : JsString) :
    (step s (.request (.call (.connect u t)))).2.sets = connected s.sets u t := by
  rw [(step_request s _).2.1, RedisPresence.step_connect]

theorem sets_disconnect (s : Server) (u t : JsString) :
    (step s (.request (.call (.disconnect u t)))).2.sets = disconnected s.sets u t := by
  rw [(step_request s _).2.1, RedisPresence.step_disconnect]

/-- The time to live of a socket set. -/
def ttl : ℕ := socketTtlSeconds * 1000

theorem deadline_expire (s : Server) (u t : JsString) (seconds : ℕ) :
    (exec (.expire (keySockets u) seconds) (exec (.sadd (keySockets u) t) s).2).2.deadline =
      Function.update s.deadline (keySockets u) (some (s.now + seconds * 1000)) := by
  simp [exec, RedisPresence.exec, Server.deadlineAfter]

theorem deadline_connect (s : Server) (u t : JsString) :
    (step s (.request (.call (.connect u t)))).2.deadline =
      Function.update s.deadline (keySockets u) (some (s.now + ttl)) := by
  refine Eq.trans ?_ (deadline_expire s u t socketTtlSeconds)
  by_cases h : (insert t (s.sets (keySockets u))).card = 1 <;>
    simp [step, Request.program, Call.body, connect, perform, Program.call, Program.attempt, exec,
      RedisPresence.exec, Server.deadlineAfter, h]

theorem deadline_disconnect (s : Server) (u t v : JsString)
    (h : u = v → (s.sets (keySockets u)).erase t ≠ ∅) :
    (step s (.request (.call (.disconnect u t)))).2.deadline (keySockets v) =
      s.deadline (keySockets v) := by
  by_cases hempty : (s.sets (keySockets u)).erase t = ∅
  · have hne : v ≠ u := fun huv => h huv.symm hempty
    by_cases honline : (s.sets keyOnline).erase u = ∅ <;>
      simp [step, Request.program, Call.body, disconnect, perform, Program.call, Program.attempt,
        exec, RedisPresence.exec, Server.deadlineAfter, hempty, honline, hne]
  · simp [step, Request.program, Call.body, disconnect, perform, Program.call, Program.attempt,
      exec, RedisPresence.exec, Server.deadlineAfter, hempty]

theorem deadline_keyOnline {s : Server} (h : s.deadline keyOnline = none) (r : Request) :
    (step s (.request r)).2.deadline keyOnline = none := by
  cases r with
  | call c =>
    cases c with
    | connect u t => simp [deadline_connect, h]
    | disconnect u t =>
      by_cases hempty : (s.sets (keySockets u)).erase t = ∅
      · by_cases honline : (s.sets keyOnline).erase u = ∅ <;>
          simp [step, Request.program, Call.body, disconnect, perform, Program.call,
            Program.attempt, exec, RedisPresence.exec, Server.deadlineAfter, hempty, honline, h]
      · simp [step, Request.program, Call.body, disconnect, perform, Program.call,
          Program.attempt, exec, RedisPresence.exec, Server.deadlineAfter, hempty, h]
  | isOnline u => exact h
  | getOnlineUserIds x => exact h

/-- The time since the last connect of the user. -/
def idleAfter (userId : JsString) (idle : ℕ) : Event → ℕ
  | .request (.call (.connect u _)) => if u = userId then 0 else idle
  | .request _ => idle
  | .pass milliseconds => idle + milliseconds

def idle (userId : JsString) (history : List Event) : ℕ := history.foldl (idleAfter userId) 0

@[simp] theorem idle_concat (u : JsString) (history : List Event) (event : Event) :
    idle u (history ++ [event]) = idleAfter u (idle u history) event := by
  simp [idle]

theorem idle_since_connect (u s : JsString) (before rest : List Event) :
    idle u (before ++ .request (.call (.connect u s)) :: rest) = idle u rest := by
  simp [idle, idleAfter]

/-- The socket was connected, has not been disconnected, and since then no hour has passed
without a connect of the user. -/
def Remembered (history : List Event) (userId socketId : JsString) : Prop :=
  ∃ before rest, history = before ++ .request (.call (.connect userId socketId)) :: rest ∧
    .request (.call (.disconnect userId socketId)) ∉ rest ∧
    ∀ start, start <+: rest → idle userId start < ttl

theorem Remembered.idle_lt {history : List Event} {u s : JsString}
    (h : Remembered history u s) : idle u history < ttl := by
  obtain ⟨before, rest, rfl, -, hidle⟩ := h
  rw [idle_since_connect]
  exact hidle rest List.prefix_rfl

theorem remembered_concat {history : List Event} {event : Event} {u s : JsString} :
    Remembered (history ++ [event]) u s ↔ event = .request (.call (.connect u s)) ∨
      (Remembered history u s ∧ event ≠ .request (.call (.disconnect u s)) ∧
        idle u (history ++ [event]) < ttl) := by
  constructor
  · rintro ⟨before, rest, h, hmem, hidle⟩
    rcases List.eq_nil_or_concat rest with rfl | ⟨init, last, rfl⟩
    · obtain ⟨-, hlast⟩ := List.append_inj' h rfl
      exact .inl (List.head_eq_of_cons_eq hlast)
    · have hlt := hidle _ List.prefix_rfl
      rw [List.concat_eq_append] at h hmem hidle hlt
      rw [h, idle_since_connect]
      rw [← List.cons_append, ← List.append_assoc] at h
      obtain ⟨hinit, hlast⟩ := List.append_inj' h rfl
      obtain rfl := List.head_eq_of_cons_eq hlast
      refine .inr ⟨⟨before, init, hinit, fun hin => hmem (by simp [hin]), fun start hstart => ?_⟩,
        fun heq => hmem (by simp [heq]), hlt⟩
      exact hidle start (hstart.trans (List.prefix_append _ _))
  · rintro (rfl | ⟨⟨before, rest, rfl, hmem, hidle⟩, hne, hlt⟩)
    · refine ⟨history, [], rfl, List.not_mem_nil, fun start hstart => ?_⟩
      obtain rfl := List.prefix_nil.mp hstart
      exact Nat.mul_pos (by decide) (by decide)
    · refine ⟨before, rest ++ [event], by simp, ?_, fun start hstart => ?_⟩
      · simp [hmem, Ne.symm hne]
      · rcases List.prefix_concat_iff.mp hstart with rfl | hstart
        · rwa [List.append_assoc, List.cons_append, idle_since_connect] at hlt
        · exact hidle start hstart

def Event.change : Event → Option (Change (JsString × JsString))
  | request r => r.change
  | pass _ => none

/-- The connections and disconnections of a history. -/
def changes (history : List Event) : List (Change (JsString × JsString)) :=
  history.filterMap Event.change

def serverAfter (history : List Event) : Server := after step fresh history

@[simp] theorem serverAfter_concat (history : List Event) (event : Event) :
    serverAfter (history ++ [event]) = (step (serverAfter history) event).2 := by
  simp [serverAfter]

/-- The socket sets hold what is remembered, and expire when their users have been idle for an
hour. A user with a socket set is online. -/
structure Tracks (history : List Event) (s : Server) : Prop where
  remembered : ∀ u t, t ∈ s.sets (keySockets u) ↔ Remembered history u t
  deadline : ∀ u, s.sets (keySockets u) ≠ ∅ →
    ∃ d, s.deadline (keySockets u) = some d ∧ d + idle u history = s.now + ttl
  online : s.deadline keyOnline = none
  populated : ∀ u, s.sets (keySockets u) ≠ ∅ → u ∈ s.sets keyOnline

section Steps

variable {history : List Event} {s : Server}

theorem Tracks.idle_lt (h : Tracks history s) {u : JsString} (hne : s.sets (keySockets u) ≠ ∅) :
    idle u history < ttl := by
  obtain ⟨t, ht⟩ := Finset.nonempty_iff_ne_empty.mpr hne
  exact ((h.remembered u t).mp ht).idle_lt

theorem Tracks.connect (h : Tracks history s) (v t : JsString) :
    Tracks (history ++ [.request (.call (.connect v t))])
      (step s (.request (.call (.connect v t)))).2 := by
  have hsets := sets_connect s v t
  have hnow := (step_request s (.call (.connect v t))).2.2
  have hidle : ∀ u, idle u (history ++ [.request (.call (.connect v t))]) =
      if v = u then 0 else idle u history := fun u => idle_concat u history _
  refine ⟨fun u x => ?_, fun u hu => ?_, deadline_keyOnline h.online _, fun u hu => ?_⟩
  · rw [hsets, RedisPresence.connected_keySockets, remembered_concat, hidle, ← h.remembered]
    split
    · rename_i hu
      subst hu
      have hpos : 0 < ttl := Nat.mul_pos (by decide) (by decide)
      simp [hpos, eq_comm]
    · rename_i hu
      simp only [Event.request.injEq, Request.call.injEq, Call.connect.injEq, Ne.symm hu,
        false_and, if_false, false_or, ne_eq, reduceCtorEq, not_false_eq_true, true_and]
      exact (and_iff_left_of_imp fun hx => h.idle_lt (Finset.ne_empty_of_mem hx)).symm
  · rw [hsets, RedisPresence.connected_keySockets] at hu
    rw [deadline_connect, hnow, hidle]
    by_cases huv : v = u
    · subst huv
      exact ⟨_, Function.update_self _ _ _, by simp⟩
    · rw [if_neg (Ne.symm huv)] at hu
      rw [if_neg huv, Function.update_of_ne (by simpa using Ne.symm huv)]
      exact h.deadline u hu
  · rw [hsets, RedisPresence.connected_keySockets] at hu
    rw [hsets, RedisPresence.mem_connected_keyOnline]
    by_cases huv : u = v
    · subst huv
      by_cases hempty : s.sets (keySockets u) = ∅
      · exact .inl ⟨rfl, by simp [hempty]⟩
      · exact .inr (h.populated u hempty)
    · rw [if_neg huv] at hu
      exact .inr (h.populated u hu)

theorem Tracks.disconnect (h : Tracks history s) (v t : JsString) :
    Tracks (history ++ [.request (.call (.disconnect v t))])
      (step s (.request (.call (.disconnect v t)))).2 := by
  have hsets := sets_disconnect s v t
  have hnow := (step_request s (.call (.disconnect v t))).2.2
  have hidle : ∀ u, idle u (history ++ [.request (.call (.disconnect v t))]) =
      idle u history := fun u => idle_concat u history _
  refine ⟨fun u x => ?_, fun u hu => ?_, deadline_keyOnline h.online _, fun u hu => ?_⟩
  · rw [hsets, RedisPresence.disconnected_keySockets, remembered_concat, hidle, ← h.remembered]
    have hlt : x ∈ s.sets (keySockets u) → idle u history < ttl := fun hx =>
      h.idle_lt (Finset.ne_empty_of_mem hx)
    split
    · rename_i hu
      subst hu
      simp only [Finset.mem_erase, Event.request.injEq, Request.call.injEq, reduceCtorEq,
        false_or, ne_eq, Call.disconnect.injEq, true_and]
      constructor
      · rintro ⟨hne, hx⟩
        exact ⟨hx, Ne.symm hne, hlt hx⟩
      · rintro ⟨hx, hne, -⟩
        exact ⟨Ne.symm hne, hx⟩
    · rename_i hu
      simp only [Event.request.injEq, Request.call.injEq, reduceCtorEq, false_or, ne_eq,
        Call.disconnect.injEq, Ne.symm hu, false_and, not_false_eq_true, true_and]
      exact (and_iff_left_of_imp hlt).symm
  · rw [hsets, RedisPresence.disconnected_keySockets] at hu
    have hkept : v = u → (s.sets (keySockets v)).erase t ≠ ∅ := by
      rintro rfl
      rwa [if_pos rfl] at hu
    rw [deadline_disconnect s v t u hkept, hnow, hidle]
    refine h.deadline u fun hempty => hu ?_
    split
    · rename_i huv
      rw [← huv, hempty, Finset.erase_empty]
    · exact hempty
  · rw [hsets, RedisPresence.disconnected_keySockets] at hu
    rw [hsets, RedisPresence.mem_disconnected_keyOnline]
    by_cases huv : u = v
    · subst huv
      rw [if_pos rfl] at hu
      refine ⟨fun hempty => hu hempty.2, h.populated u fun hempty => hu ?_⟩
      rw [hempty, Finset.erase_empty]
    · rw [if_neg huv] at hu
      exact ⟨fun hand => huv hand.1, h.populated u hu⟩

/-- A request that only reads. -/
theorem Tracks.read (h : Tracks history s) {r : Request} (hr : r.change = none) :
    Tracks (history ++ [.request r]) (step s (.request r)).2 := by
  have hstate : (step s (.request r)).2 = s := by
    cases r with
    | call c => cases hr
    | isOnline u => rfl
    | getOnlineUserIds x => rfl
  have hidle : ∀ u, idle u (history ++ [.request r]) = idle u history := by
    intro u
    rw [idle_concat]
    cases r with
    | call c => cases hr
    | isOnline u => rfl
    | getOnlineUserIds x => rfl
  have hne : ∀ c, Event.request r ≠ .request (.call c) := by
    rintro c heq
    obtain rfl := Event.request.inj heq
    cases hr
  rw [hstate]
  refine ⟨fun u t => ?_, fun u hu => ?_, h.online, h.populated⟩
  · rw [remembered_concat, hidle, h.remembered]
    have hlt : Remembered history u t → idle u history < ttl := Remembered.idle_lt
    simp only [hne (.connect u t), hne (.disconnect u t), false_or, ne_eq, not_false_eq_true,
      true_and]
    exact (and_iff_left_of_imp hlt).symm
  · rw [hidle]
    exact h.deadline u hu

theorem Tracks.pass (h : Tracks history s) (milliseconds : ℕ) :
    Tracks (history ++ [.pass milliseconds]) (step s (.pass milliseconds)).2 := by
  have hexpired : ∀ u, s.sets (keySockets u) ≠ ∅ →
      (({ s with now := s.now + milliseconds } : Server).Expired (keySockets u) ↔
        ttl ≤ idle u (history ++ [.pass milliseconds])) := by
    intro u hu
    obtain ⟨d, hd, hsum⟩ := h.deadline u hu
    simp only [Server.Expired, hd, Option.some.injEq, exists_eq_left', idle_concat, idleAfter]
    omega
  have honline : ¬ ({ s with now := s.now + milliseconds } : Server).Expired keyOnline := by
    rintro ⟨d, hd, -⟩
    simp [h.online] at hd
  refine ⟨fun u t => ?_, fun u hu => ?_, ?_, fun u hu => ?_⟩
  · simp only [step, Server.purge, remembered_concat, reduceCtorEq, false_or, ne_eq,
      not_false_eq_true, true_and, ← h.remembered]
    by_cases hempty : s.sets (keySockets u) = ∅
    · simp [hempty]
    · have hiff := hexpired u hempty
      split
      · rename_i hexp
        have hle := hiff.mp hexp
        simp only [Finset.notMem_empty, false_iff, not_and, not_lt]
        exact fun _ => hle
      · rename_i hexp
        have hlt := not_le.mp (mt hiff.mpr hexp)
        exact (and_iff_left hlt).symm
  · simp only [step, Server.purge] at hu ⊢
    split at hu
    · exact absurd rfl hu
    · rename_i hexp
      obtain ⟨d, hd, hsum⟩ := h.deadline u hu
      rw [if_neg hexp]
      refine ⟨d, hd, ?_⟩
      rw [idle_concat, idleAfter]
      omega
  · simp [step, Server.purge, honline, h.online]
  · simp only [step, Server.purge] at hu ⊢
    rw [if_neg honline]
    split at hu
    · exact absurd rfl hu
    · exact h.populated u hu

theorem Tracks.step (h : Tracks history s) (event : Event) :
    Tracks (history ++ [event]) (PresenceExpiry.step s event).2 := by
  cases event with
  | request r =>
    cases r with
    | call c =>
      cases c with
      | connect v t => exact h.connect v t
      | disconnect v t => exact h.disconnect v t
    | isOnline u => exact h.read rfl
    | getOnlineUserIds x => exact h.read rfl
  | pass milliseconds => exact h.pass milliseconds

end Steps

theorem fresh_tracks : Tracks [] fresh where
  remembered := by
    intro u t
    simp only [fresh, Finset.notMem_empty, false_iff]
    rintro ⟨before, rest, h, -⟩
    simp at h
  deadline := by simp [fresh]
  online := rfl
  populated := by simp [fresh]

theorem serverAfter_tracks (history : List Event) : Tracks history (serverAfter history) :=
  after_history (R := Tracks) fresh_tracks (fun _ _ event h => h.step event) history

/-- The answer to a request after a history. -/
def reply (history : List Event) (r : Request) :
    Option (Except JsError (Reply (Finset JsString))) :=
  (step (serverAfter history) (.request r)).1

theorem reply_isOnline {history : List Event} {u : JsString} :
    reply history (.isOnline u) = some (.ok (.flag true)) ↔
      u ∈ (serverAfter history).sets keyOnline := by
  rw [reply, (step_request _ _).1, RedisPresence.step_isOnline]
  simp

theorem reply_disconnect {history : List Event} {u t : JsString} :
    reply history (.call (.disconnect u t)) = some (.ok (.flag true)) ↔
      ¬ ∃ x, x ≠ t ∧ Remembered history u x := by
  have htracks := serverAfter_tracks history
  rw [reply, (step_request _ _).1, RedisPresence.step_disconnect]
  simp [Finset.eq_empty_iff_forall_notMem, htracks.remembered]

/-- Whoever has a connected socket is online, and no disconnect that leaves another socket
connected is taken for the last. -/
structure KeepsOnline (run : List Event) : Prop where
  online : ∀ history, history <+: run → ∀ u, Online (changes history) u →
    reply history (.isOnline u) = some (.ok (.flag true))
  disconnect : ∀ history u t rest, run = history ++ .request (.call (.disconnect u t)) :: rest →
    (∃ x, x ≠ t ∧ Connected (changes history) u x) →
      reply history (.call (.disconnect u t)) ≠ some (.ok (.flag true))

/-- A disconnect that leaves another socket connected leaves one that is remembered. -/
def Timely (run : List Event) : Prop :=
  ∀ history u t rest, run = history ++ .request (.call (.disconnect u t)) :: rest →
    (∃ x, x ≠ t ∧ Connected (changes history) u x) → ∃ x, x ≠ t ∧ Remembered history u x

theorem Timely.init {history : List Event} {event : Event} (h : Timely (history ++ [event])) :
    Timely history := by
  intro before u t rest hsplit
  refine h before u t (rest ++ [event]) ?_
  rw [hsplit, List.append_assoc, List.cons_append]

theorem changes_concat (history : List Event) (event : Event) :
    changes (history ++ [event]) = changes history ++ event.change.toList := by
  rw [changes, changes, List.filterMap_append]
  cases hchange : event.change with
  | none => simp [hchange]
  | some change => simp [hchange]

/-- With timely disconnects, users with connected sockets stay online. -/
theorem mem_online_of_timely {history : List Event} (h : Timely history) {u : JsString}
    (hu : Online (changes history) u) : u ∈ (serverAfter history).sets keyOnline := by
  induction history using List.reverseRecOn generalizing u with
  | nil =>
    obtain ⟨t, ht⟩ := hu
    exact absurd ht (not_live_nil _)
  | append_singleton history event ih =>
    have hinit := @ih h.init
    have htracks := serverAfter_tracks (history ++ [event])
    have hbefore := serverAfter_tracks history
    obtain ⟨x, hx⟩ := hu
    rw [changes_concat] at hx
    cases event with
    | request r =>
      cases r with
      | call c =>
        cases c with
        | connect v t =>
          rcases live_concat_add.mp hx with heq | hx
          · obtain ⟨rfl, rfl⟩ := Prod.mk.inj heq
            refine htracks.populated u (Finset.ne_empty_of_mem ((htracks.remembered u x).mpr ?_))
            exact remembered_concat.mpr (.inl rfl)
          · rw [serverAfter_concat, sets_connect, RedisPresence.mem_connected_keyOnline]
            exact .inr (hinit ⟨x, hx⟩)
        | disconnect v t =>
          obtain ⟨hne, hconnected⟩ := live_concat_remove.mp hx
          by_cases huv : u = v
          · subst huv
            have hxt : x ≠ t := fun hxt => hne (by rw [hxt])
            obtain ⟨y, hyt, hy⟩ := h history u t [] rfl ⟨x, hxt, hconnected⟩
            refine htracks.populated u (Finset.ne_empty_of_mem ((htracks.remembered u y).mpr ?_))
            refine remembered_concat.mpr (.inr ⟨hy, by simp [Ne.symm hyt], ?_⟩)
            simpa [idleAfter] using hy.idle_lt
          · rw [serverAfter_concat, sets_disconnect, RedisPresence.mem_disconnected_keyOnline]
            exact ⟨fun hand => huv hand.1, hinit ⟨x, hconnected⟩⟩
      | isOnline v =>
        rw [serverAfter_concat]
        exact hinit ⟨x, by simpa [Event.change, Request.change] using hx⟩
      | getOnlineUserIds v =>
        rw [serverAfter_concat]
        exact hinit ⟨x, by simpa [Event.change, Request.change] using hx⟩
    | pass milliseconds =>
      have honline := hinit ⟨x, by simpa [Event.change] using hx⟩
      have hexpired : ¬ ({ serverAfter history with
          now := (serverAfter history).now + milliseconds } : Server).Expired keyOnline := by
        rintro ⟨d, hd, -⟩
        simp [hbefore.online] at hd
      rw [serverAfter_concat]
      simpa [step, Server.purge, hexpired] using honline

/-- A live connection keeps its user online in exactly those runs in which every disconnect
that leaves another socket connected leaves one that is remembered. -/
theorem keepsOnline_iff (run : List Event) : KeepsOnline run ↔ Timely run := by
  constructor
  · intro h history u t rest hsplit hother
    by_contra hnone
    exact h.disconnect history u t rest hsplit hother (reply_disconnect.mpr hnone)
  · intro h
    refine ⟨fun history hprefix u hu => ?_, fun history u t rest hsplit hother hreply => ?_⟩
    · obtain ⟨rest, rfl⟩ := hprefix
      refine reply_isOnline.mpr (mem_online_of_timely (fun before v t after hsplit => ?_) hu)
      refine h before v t (after ++ rest) ?_
      rw [hsplit, List.append_assoc, List.cons_append]
    · exact reply_disconnect.mp hreply (h history u t rest hsplit hother)

/-- `alice` keeps a tab open, and an hour later opens and closes another one. -/
def secondTab : List Event :=
  [.request (.call (.connect (js "alice") (js "s1"))), .pass 3600000,
    .request (.call (.connect (js "alice") (js "s2"))),
    .request (.call (.disconnect (js "alice") (js "s2")))]

/-- Closing the second tab is announced as going offline, while the first one is open. -/
theorem secondTab_offline :
    Connected (changes secondTab) (js "alice") (js "s1") ∧
      answers step fresh (secondTab ++ [.request (.isOnline (js "alice"))]) =
        [some (.ok (.flag true)), none, some (.ok (.flag true)), some (.ok (.flag true)),
          some (.ok (.flag false))] ∧
      ¬ KeepsOnline secondTab := by
  have hconnected : Connected (changes secondTab) (js "alice") (js "s1") :=
    mem_registered.mp (by decide)
  have hanswers : answers step fresh (secondTab ++ [.request (.isOnline (js "alice"))]) =
      [some (.ok (.flag true)), none, some (.ok (.flag true)), some (.ok (.flag true)),
        some (.ok (.flag false))] := by decide
  refine ⟨hconnected, hanswers, fun h => ?_⟩
  have honline := h.online secondTab List.prefix_rfl _ ⟨_, hconnected⟩
  exact absurd honline (by decide)

end ChatMicroservices.PresenceExpiry

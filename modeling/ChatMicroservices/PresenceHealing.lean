import ChatMicroservices.RedisPresence
import Mathlib.Data.Fintype.EquivFin

/-!
# Presence and errors of the Redis server

Every command of a call may throw, and then changes nothing. The errors of a pipeline are in
its result, so a connect goes on after them. Nothing repairs what a failed call leaves: a
connect that could not count or announce its socket, a disconnect that could not remove it.
-/

namespace ChatMicroservices.PresenceHealing
open JavaScriptValues EffectPrograms RegisteredSets PresenceStore
open RedisPresence (noSets connected disconnected)

/-- The sets, and what the next commands throw. -/
structure Server where
  sets : Sets
  failure : ℕ → Option JsError

def refuse (e : JsError) : (op : Op) → Ans op
  | .sadd _ _ | .srem _ _ | .scard _ | .sismember _ _ | .expire _ _ | .smembers _ => .error e
  | .begin | .finish _ => ()

def exec (op : Op) (s : Server) : Ans op × Server :=
  let rest := fun n => s.failure (n + 1)
  match s.failure 0 with
  | some e => (refuse e op, ⟨s.sets, rest⟩)
  | none => ((RedisPresence.exec op s.sets).1, ⟨(RedisPresence.exec op s.sets).2, rest⟩)

/-- A call, and what its commands throw, in their order. -/
structure Attempt where
  call : Call
  failure : ℕ → Option JsError

def Attempt.Clean (a : Attempt) : Prop := ∀ n, a.failure n = none

def clean (call : Call) : Attempt := ⟨call, fun _ => none⟩

theorem clean_clean (call : Call) : (clean call).Clean := fun _ => rfl

theorem Attempt.Clean.eq {a : Attempt} (h : a.Clean) : a = clean a.call :=
  congrArg (Attempt.mk a.call) (funext h)

def step (sets : Sets) (a : Attempt) : Sets :=
  (a.call.body.run exec ⟨sets, a.failure⟩).2.sets

def setsAfter (run : List Attempt) : Sets := run.foldl step noSets

@[simp] theorem setsAfter_append (run rest : List Attempt) :
    setsAfter (run ++ rest) = rest.foldl step (setsAfter run) := List.foldl_append

/-- What the store answers when its commands succeed again. -/
def isOnline (run : List Attempt) (userId : JsString) : Except JsError Bool :=
  ((PresenceStore.isOnline userId).run RedisPresence.exec (setsAfter run)).1

theorem isOnline_eq (run : List Attempt) (u : JsString) :
    isOnline run u = .ok (decide (u ∈ setsAfter run keyOnline)) := by
  by_cases h : u ∈ setsAfter run keyOnline <;>
    simp [isOnline, PresenceStore.isOnline, perform, Program.call, Program.attempt,
      RedisPresence.exec, h]

section Calls

variable (sets : Sets) (u s : JsString) (failure : ℕ → Option JsError)

/-- The set of sockets that a connect counts. -/
def added : Finset JsString :=
  if failure 0 = none then insert s (sets (keySockets u)) else sets (keySockets u)

/-- A connect announces its user when both later commands succeed on a single socket. -/
theorem step_connect : step sets ⟨.connect u s, failure⟩ =
    let sockets := added sets u s failure
    let sets := Function.update sets (keySockets u) sockets
    if failure 2 = none ∧ sockets.card = 1 ∧ failure 3 = none then
      Function.update sets keyOnline (insert u (sets keyOnline))
    else sets := by
  cases h0 : failure 0 <;> cases h1 : failure 1 <;> cases h2 : failure 2 <;>
    cases h3 : failure 3 <;>
    by_cases hcard : (added sets u s failure).card = 1 <;>
    simp_all [step, Call.body, connect, perform, Program.call, Program.attempt, exec, refuse,
      RedisPresence.exec, added]

theorem step_disconnect : step sets ⟨.disconnect u s, failure⟩ =
    if failure 0 = none then
      let sockets := (sets (keySockets u)).erase s
      let sets := Function.update sets (keySockets u) sockets
      if failure 1 = none ∧ sockets = ∅ ∧ failure 2 = none then
        Function.update sets keyOnline ((sets keyOnline).erase u)
      else sets
    else sets := by
  cases h0 : failure 0 <;> cases h1 : failure 1 <;> cases h2 : failure 2 <;>
    by_cases hcard : (sets (keySockets u)).erase s = ∅ <;>
    simp_all [step, Call.body, disconnect, perform, Program.call, Program.attempt, exec, refuse,
      RedisPresence.exec]

end Calls

section Keys

variable {sets : Sets} {u s v : JsString} {failure : ℕ → Option JsError}

theorem step_connect_keySockets : step sets ⟨.connect u s, failure⟩ (keySockets v) =
    if v = u then added sets u s failure else sets (keySockets v) := by
  rw [step_connect]
  by_cases hv : v = u
  · subst hv
    simp only [if_true]
    split <;> simp
  · simp only [hv, if_false]
    split <;> simp [hv]

theorem mem_step_connect_keyOnline : v ∈ step sets ⟨.connect u s, failure⟩ keyOnline ↔
    (v = u ∧ failure 2 = none ∧ (added sets u s failure).card = 1 ∧ failure 3 = none) ∨
      v ∈ sets keyOnline := by
  rw [step_connect]
  by_cases h : failure 2 = none ∧ (added sets u s failure).card = 1 ∧ failure 3 = none
  · simp [h]
  · simp [h]

theorem step_disconnect_keySockets : step sets ⟨.disconnect u s, failure⟩ (keySockets v) =
    if v = u ∧ failure 0 = none then (sets (keySockets u)).erase s else sets (keySockets v) := by
  rw [step_disconnect]
  by_cases h0 : failure 0 = none
  · by_cases hv : v = u
    · subst hv
      simp only [h0, if_true, and_self]
      split <;> simp
    · simp only [h0, hv, if_true, false_and, if_false]
      split <;> simp [hv]
  · simp [h0]

theorem mem_step_disconnect_keyOnline : v ∈ step sets ⟨.disconnect u s, failure⟩ keyOnline ↔
    ¬ (v = u ∧ failure 0 = none ∧ failure 1 = none ∧ (sets (keySockets u)).erase s = ∅ ∧
      failure 2 = none) ∧ v ∈ sets keyOnline := by
  rw [step_disconnect]
  by_cases h0 : failure 0 = none
  · by_cases h : failure 1 = none ∧ (sets (keySockets u)).erase s = ∅ ∧ failure 2 = none
    · simp [h0, h]
    · simp [h0, h]
  · simp [h0]

theorem mem_added {x : JsString} : x ∈ added sets u s failure ↔
    (x = s ∧ failure 0 = none) ∨ x ∈ sets (keySockets u) := by
  unfold added
  split
  · rename_i h
    simp [h]
  · rename_i h
    simp [h]

end Keys

/-- The connections and disconnections of a run. A disconnect that fails is one. -/
def changes (run : List Attempt) : List (Change (JsString × JsString)) :=
  run.map fun a => a.call.change

@[simp] theorem changes_append (run rest : List Attempt) :
    changes (run ++ rest) = changes run ++ changes rest := List.map_append

/-- A user with a socket in its set is announced, every socket in the set is connected, and
a user without connected sockets is not announced. -/
structure Sound (sets : Sets) (history : List (Change (JsString × JsString)))
    (userId : JsString) : Prop where
  announced : sets (keySockets userId) = ∅ ∨ userId ∈ sets keyOnline
  connected : ∀ socketId ∈ sets (keySockets userId), Connected history userId socketId
  quiet : (∀ socketId, ¬ Connected history userId socketId) → userId ∉ sets keyOnline

/-- No failure makes a user with a single socket miss the announcement, leaves the socket that
is disconnected in its set, or leaves a user announced whose last socket is disconnected. -/
def Harmless (sets : Sets) (a : Attempt) : Prop :=
  match a.call with
  | .connect userId socketId =>
    (added sets userId socketId a.failure).card = 1 → userId ∉ sets keyOnline →
      a.failure 2 = none ∧ a.failure 3 = none
  | .disconnect userId socketId =>
    (socketId ∈ sets (keySockets userId) → a.failure 0 = none) ∧
      ((sets (keySockets userId)).erase socketId = ∅ → userId ∈ sets keyOnline →
        a.failure 0 = none ∧ a.failure 1 = none ∧ a.failure 2 = none)

theorem Attempt.Clean.harmless {a : Attempt} (h : a.Clean) (sets : Sets) : Harmless sets a := by
  unfold Harmless
  split
  · exact fun _ _ => ⟨h 2, h 3⟩
  · exact ⟨fun _ => h 0, fun _ _ => ⟨h 0, h 1, h 2⟩⟩

theorem Sound.connect {sets : Sets} {history : List (Change (JsString × JsString))}
    {u v s : JsString} {failure : ℕ → Option JsError} (h : Sound sets history v)
    (ha : Harmless sets ⟨.connect u s, failure⟩) :
    Sound (PresenceHealing.step sets ⟨.connect u s, failure⟩) (history ++ [.add (u, s)]) v := by
  refine ⟨?_, fun x hx => ?_, fun hnone => ?_⟩
  · rw [step_connect_keySockets, mem_step_connect_keyOnline]
    by_cases hv : v = u
    · subst hv
      rw [if_pos rfl]
      rcases h.announced with hempty | honline
      · by_cases hadd : failure 0 = none
        · have hcard : (added sets v s failure).card = 1 := by simp [added, hadd, hempty]
          by_cases honline : v ∈ sets keyOnline
          · exact .inr (.inr honline)
          · obtain ⟨h2, h3⟩ := ha hcard honline
            exact .inr (.inl ⟨rfl, h2, hcard, h3⟩)
        · exact .inl (by simp [added, hadd, hempty])
      · exact .inr (.inr honline)
    · rw [if_neg hv]
      exact h.announced.imp id .inr
  · rw [step_connect_keySockets] at hx
    refine live_concat_add.mpr ?_
    split at hx
    · rename_i hv
      subst hv
      rcases mem_added.mp hx with ⟨rfl, -⟩ | hx
      · exact .inl rfl
      · exact .inr (h.connected x hx)
    · exact .inr (h.connected x hx)
  · have hv : v ≠ u := by
      rintro rfl
      exact hnone s (live_concat_add.mpr (.inl rfl))
    rw [mem_step_connect_keyOnline]
    rintro (⟨heq, -⟩ | honline)
    · exact hv heq
    · exact h.quiet (fun t ht => hnone t (live_concat_add.mpr (.inr ht))) honline

theorem Sound.disconnect {sets : Sets} {history : List (Change (JsString × JsString))}
    {u v s : JsString} {failure : ℕ → Option JsError} (h : Sound sets history v)
    (ha : Harmless sets ⟨.disconnect u s, failure⟩) :
    Sound (PresenceHealing.step sets ⟨.disconnect u s, failure⟩)
      (history ++ [.remove (u, s)]) v := by
  refine ⟨?_, fun x hx => ?_, fun hnone => ?_⟩
  · rw [step_disconnect_keySockets, mem_step_disconnect_keyOnline]
    by_cases hv : v = u ∧ failure 0 = none
    · rw [if_pos hv]
      obtain ⟨rfl, h0⟩ := hv
      by_cases hempty : (sets (keySockets v)).erase s = ∅
      · exact .inl hempty
      · refine .inr ⟨fun hand => hempty hand.2.2.2.1, h.announced.resolve_left fun hnone => ?_⟩
        exact hempty (by rw [hnone, Finset.erase_empty])
    · rw [if_neg hv]
      exact h.announced.imp id fun honline => ⟨fun hand => hv ⟨hand.1, hand.2.1⟩, honline⟩
  · rw [step_disconnect_keySockets] at hx
    refine live_concat_remove.mpr ?_
    split at hx
    · rename_i hv
      obtain ⟨rfl, -⟩ := hv
      obtain ⟨hne, hx⟩ := Finset.mem_erase.mp hx
      exact ⟨fun heq => hne (Prod.mk.inj heq).2, h.connected x hx⟩
    · rename_i hv
      refine ⟨fun heq => ?_, h.connected x hx⟩
      obtain ⟨rfl, rfl⟩ := Prod.mk.inj heq
      exact hv ⟨rfl, ha.1 hx⟩
  · rw [mem_step_disconnect_keyOnline]
    rintro ⟨hkept, honline⟩
    by_cases hv : v = u
    · subst hv
      have hempty : (sets (keySockets v)).erase s = ∅ := by
        refine Finset.eq_empty_of_forall_notMem fun x hx => ?_
        obtain ⟨hne, hx⟩ := Finset.mem_erase.mp hx
        refine hnone x (live_concat_remove.mpr ⟨fun heq => ?_, h.connected x hx⟩)
        exact hne (Prod.mk.inj heq).2
      obtain ⟨h0, h1, h2⟩ := ha.2 hempty honline
      exact hkept ⟨rfl, h0, h1, hempty, h2⟩
    · refine h.quiet (fun t ht => ?_) honline
      exact hnone t (live_concat_remove.mpr ⟨fun heq => hv (Prod.mk.inj heq).1, ht⟩)

theorem Sound.step {sets : Sets} {history : List (Change (JsString × JsString))}
    {v : JsString} (h : Sound sets history v) {a : Attempt} (ha : Harmless sets a) :
    Sound (PresenceHealing.step sets a) (history ++ [a.call.change]) v := by
  obtain ⟨call, failure⟩ := a
  cases call with
  | connect u s => exact h.connect ha
  | disconnect u s => exact h.disconnect ha

theorem Sound.run {sets : Sets} {history : List (Change (JsString × JsString))} {v : JsString}
    (h : Sound sets history v) {rest : List Attempt} (hrest : ∀ a ∈ rest, a.Clean) :
    Sound (rest.foldl PresenceHealing.step sets) (history ++ changes rest) v := by
  induction rest generalizing sets history with
  | nil =>
    rw [changes, List.map_nil, List.append_nil]
    exact h
  | cons a rest ih =>
    obtain ⟨hclean, hrest⟩ := List.forall_mem_cons.mp hrest
    have hstep := ih (h.step (hclean.harmless sets)) hrest
    rwa [List.append_assoc] at hstep

/-- In a run whose failures are harmless, the sets stay sound. -/
theorem sound_of_harmless {run : List Attempt}
    (h : ∀ before a rest, run = before ++ a :: rest → Harmless (setsAfter before) a)
    (u : JsString) : Sound (setsAfter run) (changes run) u := by
  induction run using List.reverseRecOn with
  | nil =>
    exact ⟨.inl rfl, fun x hx => absurd hx (Finset.notMem_empty x), fun _ => Finset.notMem_empty u⟩
  | append_singleton run a ih =>
    rw [setsAfter_append, changes_append]
    refine (ih fun before b rest hsplit => ?_).step (h run a [] rfl)
    exact h before b (rest ++ [a]) (by simp [hsplit])

/-- The socket that a call connects. -/
def newSocket (a : Attempt) : Option JsString :=
  match a.call with
  | .connect _ socketId => some socketId
  | .disconnect _ _ => none

/-- No socket id is connected twice. -/
def ConnectedOnce (run : List Attempt) : Prop := (run.filterMap newSocket).Nodup

instance (run : List Attempt) : Decidable (ConnectedOnce run) :=
  inferInstanceAs (Decidable (List.Nodup _))

/-- After the run no command fails. Then the next connect of a new socket makes the user
online, and when every socket of the user has been disconnected, the user is offline. -/
structure Heals (run : List Attempt) (userId : JsString) : Prop where
  online : ∀ s, ConnectedOnce (run ++ [clean (.connect userId s)]) →
    isOnline (run ++ [clean (.connect userId s)]) userId = .ok true
  offline : ∀ rest, (∀ a ∈ rest, a.Clean) → ConnectedOnce (run ++ rest) →
    (∀ t, ¬ Connected (changes (run ++ rest)) userId t) →
      isOnline (run ++ rest) userId = .ok false

section Healing

variable {run : List Attempt} {u s : JsString}

/-- What is in the set of a user has been connected. -/
theorem newSocket_of_mem (h : s ∈ setsAfter run (keySockets u)) :
    s ∈ run.filterMap newSocket := by
  induction run using List.reverseRecOn with
  | nil => exact absurd h (Finset.notMem_empty s)
  | append_singleton run a ih =>
    rw [setsAfter_append] at h
    rw [List.filterMap_append, List.mem_append]
    obtain ⟨call, failure⟩ := a
    cases call with
    | connect v t =>
      simp only [List.foldl_cons, List.foldl_nil, step_connect_keySockets] at h
      split at h
      · rename_i hv
        subst hv
        rcases mem_added.mp h with ⟨rfl, -⟩ | h
        · exact .inr (by simp [newSocket])
        · exact .inl (ih h)
      · exact .inl (ih h)
    | disconnect v t =>
      simp only [List.foldl_cons, List.foldl_nil, step_disconnect_keySockets] at h
      split at h
      · rename_i hv
        obtain ⟨rfl, -⟩ := hv
        exact .inl (ih (Finset.mem_of_mem_erase h))
      · exact .inl (ih h)

theorem exists_new (honce : ConnectedOnce run) (u : JsString) :
    ∃ s, s ∉ run.filterMap newSocket ∧ ConnectedOnce (run ++ [clean (.connect u s)]) := by
  obtain ⟨s, hs⟩ := Infinite.exists_notMem_finset (run.filterMap newSocket).toFinset
  rw [List.mem_toFinset] at hs
  refine ⟨s, hs, ?_⟩
  rw [ConnectedOnce, List.filterMap_append]
  refine List.nodup_append'.mpr ⟨honce, by simp [newSocket, clean], ?_⟩
  simpa [newSocket, clean] using hs

/-- Disconnects of other sockets keep a socket in its set, and its user online. -/
theorem kept_of_disconnects {sets : Sets} {x : JsString} (hx : x ∈ sets (keySockets u))
    (honline : u ∈ sets keyOnline) {ts : List JsString} (hts : x ∉ ts) :
    u ∈ (ts.map fun t => clean (.disconnect u t)).foldl step sets keyOnline := by
  induction ts generalizing sets with
  | nil => exact honline
  | cons t ts ih =>
    obtain ⟨hne, hts⟩ := List.ne_and_not_mem_of_not_mem_cons hts
    have hmem : x ∈ (sets (keySockets u)).erase t := Finset.mem_erase.mpr ⟨hne, hx⟩
    have hx' : x ∈ step sets (clean (.disconnect u t)) (keySockets u) := by
      rw [clean, step_disconnect_keySockets, if_pos ⟨rfl, rfl⟩]
      exact hmem
    have honline' : u ∈ step sets (clean (.disconnect u t)) keyOnline := by
      rw [clean, mem_step_disconnect_keyOnline]
      exact ⟨fun hand => Finset.ne_empty_of_mem hmem hand.2.2.2.1, honline⟩
    exact ih hx' honline' hts

theorem connected_disconnects {history : List (Change (JsString × JsString))}
    {ts : List JsString} {t : JsString} :
    Connected (history ++ changes (ts.map fun t => clean (.disconnect u t))) u t ↔
      Connected history u t ∧ t ∉ ts := by
  induction ts using List.reverseRecOn with
  | nil => simp [changes]
  | append_singleton ts last ih =>
    have hlive : Live (history ++ changes (ts.map fun t => clean (.disconnect u t)) ++
        [.remove (u, last)]) (u, t) ↔ (u, t) ≠ (u, last) ∧
          Live (history ++ changes (ts.map fun t => clean (.disconnect u t))) (u, t) :=
      live_concat_remove
    rw [List.map_append, changes_append, ← List.append_assoc]
    refine hlive.trans ?_
    rw [show Live _ (u, t) ↔ _ from ih]
    simp only [ne_eq, Prod.mk.injEq, true_and, List.mem_append, List.mem_singleton, not_or]
    tauto

theorem exists_sockets (history : List (Change (JsString × JsString))) (u : JsString) :
    ∃ ts : List JsString, ∀ t, t ∈ ts ↔ Connected history u t := by
  refine ⟨((registered history).filter fun pair => pair.1 = u).toList.map Prod.snd, fun t => ?_⟩
  rw [Connected, ← mem_registered, List.mem_map]
  constructor
  · rintro ⟨⟨v, t⟩, hmem, rfl⟩
    obtain ⟨hlive, rfl⟩ := Finset.mem_filter.mp (Finset.mem_toList.mp hmem)
    exact hlive
  · intro hmem
    exact ⟨(u, t), Finset.mem_toList.mpr (Finset.mem_filter.mpr ⟨hmem, rfl⟩), rfl⟩

/-- A new socket of the user makes the user online. -/
theorem mem_online_of_heals (h : Heals run u)
    (hnew : ConnectedOnce (run ++ [clean (.connect u s)])) :
    u ∈ step (setsAfter run) (clean (.connect u s)) keyOnline := by
  have honline := h.online s hnew
  rwa [isOnline_eq, Except.ok.injEq, decide_eq_true_eq, setsAfter_append] at honline

/-- A set that a new socket does not announce has a member that was announced. -/
theorem announced_of_heals (h : Heals run u) (hs : s ∉ run.filterMap newSocket)
    (hnew : ConnectedOnce (run ++ [clean (.connect u s)])) :
    setsAfter run (keySockets u) = ∅ ∨ u ∈ setsAfter run keyOnline := by
  have hmem : s ∉ setsAfter run (keySockets u) := fun hmem => hs (newSocket_of_mem hmem)
  rcases mem_step_connect_keyOnline.mp (mem_online_of_heals h hnew) with
    ⟨-, -, hcard, -⟩ | honline
  · rcases RedisPresence.card_insert_eq_one.mp hcard with hempty | hsingle
    · exact .inl hempty
    · exact absurd (by simp [hsingle]) hmem
  · exact .inr honline

/-- A socket that is not connected would stay in the set when the others have left. -/
theorem connected_of_heals (h : Heals run u) (hs : s ∉ run.filterMap newSocket)
    (hnew : ConnectedOnce (run ++ [clean (.connect u s)])) {x : JsString}
    (hx : x ∈ setsAfter run (keySockets u)) : Connected (changes run) u x := by
  by_contra hstale
  have hxs : x ≠ s := by
    rintro rfl
    exact hs (newSocket_of_mem hx)
  obtain ⟨ts, hts⟩ := exists_sockets (changes (run ++ [clean (.connect u s)])) u
  have hxts : x ∉ ts := by
    rw [hts, changes_append]
    intro hconnected
    rcases live_concat_add.mp hconnected with heq | hconnected
    · exact hxs (Prod.mk.inj heq).2
    · exact hstale hconnected
  have hoffline := h.offline
    (clean (.connect u s) :: ts.map fun t => clean (.disconnect u t)) (fun a ha => ?_) ?_
    (fun t => ?_)
  · have hmem : x ∈ step (setsAfter run) (clean (.connect u s)) (keySockets u) := by
      rw [clean, step_connect_keySockets, if_pos rfl]
      exact mem_added.mpr (.inr hx)
    rw [isOnline_eq, Except.ok.injEq, decide_eq_false_iff_not, setsAfter_append] at hoffline
    exact hoffline (kept_of_disconnects hmem (mem_online_of_heals h hnew) hxts)
  · rcases List.mem_cons.mp ha with rfl | ha
    · exact clean_clean _
    · obtain ⟨t, -, rfl⟩ := List.mem_map.mp ha
      exact clean_clean _
  · have hnone : (ts.map fun t => clean (.disconnect u t)).filterMap newSocket = [] := by
      simp [newSocket, clean]
    rw [ConnectedOnce, List.append_cons, List.filterMap_append, hnone, List.append_nil]
    exact hnew
  · rw [List.append_cons, changes_append, connected_disconnects, hts]
    exact fun hand => hand.2 hand.1

/-- A user without connected sockets is offline already. -/
theorem quiet_of_heals (honce : ConnectedOnce run) (h : Heals run u)
    (hnone : ∀ t, ¬ Connected (changes run) u t) : u ∉ setsAfter run keyOnline := by
  have hoffline := h.offline [] (fun a ha => absurd ha List.not_mem_nil)
  rw [List.append_nil, isOnline_eq, Except.ok.injEq, decide_eq_false_iff_not] at hoffline
  exact hoffline honce hnone

theorem sound_of_heals (honce : ConnectedOnce run) (h : Heals run u) :
    Sound (setsAfter run) (changes run) u := by
  obtain ⟨s, hs, hnew⟩ := exists_new honce u
  refine ⟨announced_of_heals h hs hnew, fun _ hx => connected_of_heals h hs hnew hx, ?_⟩
  exact quiet_of_heals honce h

theorem heals_of_sound (h : Sound (setsAfter run) (changes run) u) : Heals run u := by
  refine ⟨fun s _ => ?_, fun rest hrest _ hnone => ?_⟩
  · rw [isOnline_eq, setsAfter_append, Except.ok.injEq, decide_eq_true_eq]
    refine mem_step_connect_keyOnline.mpr ?_
    rcases h.announced with hempty | honline
    · exact .inl ⟨rfl, rfl, by simp [added, hempty], rfl⟩
    · exact .inr honline
  · rw [isOnline_eq, setsAfter_append, Except.ok.injEq, decide_eq_false_iff_not]
    have hsound := h.run hrest
    rw [← changes_append] at hsound
    exact hsound.quiet hnone

/-- After a run in which commands may have failed, the presence of a user heals if and only if
the user is announced or has an empty set, every socket in the set is still connected, and the
user is not announced when no socket is. -/
theorem heals_iff (honce : ConnectedOnce run) (u : JsString) :
    Heals run u ↔ Sound (setsAfter run) (changes run) u := by
  constructor
  · exact sound_of_heals honce
  · exact heals_of_sound

end Healing

/-- A failure to extend the time to live does no harm. -/
theorem heals_after_expire : Heals [⟨.connect (js "alice") (js "s1"),
    fun n => if n = 1 then some (.failure "timeout") else none⟩] (js "alice") := by
  have hconnected : Connected (changes [⟨.connect (js "alice") (js "s1"),
      fun n => if n = 1 then some (.failure "timeout") else none⟩]) (js "alice") (js "s1") :=
    mem_registered.mp (by decide)
  refine (heals_iff (by decide) (js "alice")).mpr ⟨.inr (by decide), fun x hx => ?_, fun hnone =>
    absurd hconnected (hnone (js "s1"))⟩
  obtain rfl : x = js "s1" := by
    have hsockets := newSocket_of_mem hx
    exact List.mem_singleton.mp hsockets
  exact hconnected

/-- `alice` opens two tabs, and the command that removes the first one from her set throws. -/
def staleSocket : List Attempt :=
  [clean (.connect (js "alice") (js "s1")), clean (.connect (js "alice") (js "s2")),
    ⟨.disconnect (js "alice") (js "s1"),
      fun n => if n = 0 then some (.failure "timeout") else none⟩]

/-- The command that announces the first tab of `alice` throws. -/
def unannounced : List Attempt :=
  [⟨.connect (js "alice") (js "s1"), fun n => if n = 3 then some (.failure "timeout") else none⟩]

/-- `alice` opens a tab and closes it, and the count of her sockets throws. -/
def uncounted : List Attempt :=
  [clean (.connect (js "alice") (js "s1")),
    ⟨.disconnect (js "alice") (js "s1"),
      fun n => if n = 1 then some (.failure "timeout") else none⟩]

/-- The next tab does not make `alice` online, and closing every tab not offline. -/
theorem failures_remain :
    isOnline (unannounced ++ [clean (.connect (js "alice") (js "s2"))]) (js "alice") = .ok false ∧
      isOnline (staleSocket ++ [clean (.connect (js "alice") (js "s3")),
        clean (.disconnect (js "alice") (js "s2")),
        clean (.disconnect (js "alice") (js "s3"))]) (js "alice") = .ok true ∧
      (registered (changes uncounted) = ∅ ∧ isOnline uncounted (js "alice") = .ok true) ∧
      (¬ ∀ run u, ConnectedOnce run → Heals run u) := by
  have hunannounced : isOnline (unannounced ++ [clean (.connect (js "alice") (js "s2"))])
      (js "alice") = .ok false := by decide
  refine ⟨hunannounced, by decide, ⟨by decide, by decide⟩, fun h => ?_⟩
  have honline := (h unannounced (js "alice") (by decide)).online (js "s2") (by decide)
  cases hunannounced.symm.trans honline

end ChatMicroservices.PresenceHealing

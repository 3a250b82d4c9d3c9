import ChatMicroservices.InsertionMaps
import ChatMicroservices.PresenceStore
import ChatMicroservices.Transcripts

/-!
# The presence store of a single node

`LocalPresenceStore` keeps the sockets of each user in a map. It represents the set of all
connected pairs of a user and a socket, as long as it keeps no empty set.
-/

namespace ChatMicroservices.LocalPresenceStore
open JavaScriptValues KeyedTables InsertionMaps RegisteredSets Transcripts PresenceStore

/-- The field `sockets`. -/
abbrev Store : Type := InsertionMap JsString (Finset JsString)

def connect (store : Store) (userId socketId : JsString) : Bool × Store :=
  let store := if store.has userId then store else store.set userId ∅
  let set := (store.get userId).getD ∅
  let isFirst := set.card = 0
  (isFirst, store.set userId (insert socketId set))

def disconnect (store : Store) (userId socketId : JsString) : Bool × Store :=
  match store.get userId with
  | none => (false, store)
  | some set =>
    let set := set.erase socketId
    let isLast := set.card = 0
    (isLast, if isLast then store.delete userId else store.set userId set)

def isOnline (store : Store) (userId : JsString) : Bool :=
  ((store.get userId).map Finset.card).getD 0 > 0

def getOnlineUserIds (store : Store) (excludeUserId : JsString) : List JsString :=
  (store.rows.filter fun entry => entry.1 ≠ excludeUserId ∧ entry.2.card > 0).map Prod.fst

/-- The map is rebuilt from its entries with sockets, through a fresh one. -/
def compact (store : Store) : Store :=
  let fresh := InsertionMap.empty.setAll (store.rows.filter fun entry => entry.2.card > 0)
  InsertionMap.empty.setAll fresh.rows

def handle (store : Store) : Request → Reply (List JsString) × Store
  | .call (.connect userId socketId) =>
    let (isFirst, store) := connect store userId socketId
    (.flag isFirst, store)
  | .call (.disconnect userId socketId) =>
    let (isLast, store) := disconnect store userId socketId
    (.flag isLast, store)
  | .isOnline userId => (.flag (isOnline store userId), store)
  | .getOnlineUserIds excludeUserId => (.userIds (getOnlineUserIds store excludeUserId), store)

/-- What happens to the store. -/
inductive Event where
  | request (request : Request)
  | compact
  deriving DecidableEq

def step (store : Store) : Event → Option (Reply (List JsString)) × Store
  | .request request =>
    let (reply, store) := handle store request
    (some reply, store)
  | .compact => (none, compact store)

structure Represents (store : Store) (pairs : Finset (JsString × JsString)) : Prop where
  mem : ∀ u s, (u, s) ∈ pairs ↔ ∃ sockets, store.get u = some sockets ∧ s ∈ sockets
  nonempty : ∀ u sockets, store.get u = some sockets → sockets.Nonempty

theorem represents_empty : Represents InsertionMap.empty ∅ where
  mem := by simp
  nonempty := by simp

section Operations

variable {store : Store} {pairs : Finset (JsString × JsString)}

/-- The sockets of a user, also of one without an entry. -/
def socketsOf (store : Store) (userId : JsString) : Finset JsString := (store.get userId).getD ∅

theorem Represents.mem_socketsOf (h : Represents store pairs) {u s : JsString} :
    s ∈ socketsOf store u ↔ (u, s) ∈ pairs := by
  rw [h.mem, socketsOf]
  cases store.get u <;> simp

theorem Represents.socketsOf_eq_empty (h : Represents store pairs) {u : JsString} :
    socketsOf store u = ∅ ↔ ¬ ∃ s, (u, s) ∈ pairs := by
  rw [Finset.eq_empty_iff_forall_notMem, not_exists]
  exact forall_congr' fun s => not_congr h.mem_socketsOf

theorem connect_eq (store : Store) (u s : JsString) :
    (connect store u s).1 = decide (socketsOf store u = ∅) ∧
      ∀ v, (connect store u s).2.get v =
        if v = u then some (insert s (socketsOf store u)) else store.get v := by
  cases hget : store.get u with
  | none =>
    refine ⟨by simp [connect, socketsOf, InsertionMap.has, hget], fun v => ?_⟩
    by_cases hv : v = u <;> simp [connect, socketsOf, InsertionMap.has, hget, hv]
  | some sockets =>
    refine ⟨by simp [connect, socketsOf, InsertionMap.has, hget], fun v => ?_⟩
    by_cases hv : v = u <;> simp [connect, socketsOf, InsertionMap.has, hget, hv]

theorem socketsOf_connect (store : Store) (u s v : JsString) :
    socketsOf (connect store u s).2 v =
      if v = u then insert s (socketsOf store u) else socketsOf store v := by
  rw [socketsOf, (connect_eq store u s).2]
  split <;> rfl

theorem Represents.connect (h : Represents store pairs) (u s : JsString) :
    Represents (LocalPresenceStore.connect store u s).2 (insert (u, s) pairs) := by
  obtain ⟨-, hget⟩ := connect_eq store u s
  refine ⟨fun v t => ?_, fun v sockets hv => ?_⟩
  · rw [Finset.mem_insert, Prod.mk.injEq, hget]
    split
    · rename_i hv
      subst hv
      simp [h.mem_socketsOf]
    · rename_i hv
      simp [hv, h.mem]
  · rw [hget] at hv
    split at hv
    · obtain rfl := Option.some.inj hv
      exact Finset.insert_nonempty _ _
    · exact h.nonempty v sockets hv

theorem disconnect_eq (h : Represents store pairs) (u s : JsString) :
    (disconnect store u s).1 = decide (socketsOf store u ≠ ∅ ∧ (socketsOf store u).erase s = ∅) ∧
      ∀ v, (disconnect store u s).2.get v = if v = u then
        if (socketsOf store u).erase s = ∅ then none else some ((socketsOf store u).erase s)
        else store.get v := by
  cases hget : store.get u with
  | none =>
    refine ⟨by simp [disconnect, socketsOf, hget], fun v => ?_⟩
    by_cases hv : v = u <;> simp [disconnect, socketsOf, hget, hv]
  | some sockets =>
    have hne : sockets ≠ ∅ := (h.nonempty u sockets hget).ne_empty
    have hsockets : socketsOf store u = sockets := by simp [socketsOf, hget]
    rw [hsockets]
    by_cases hlast : sockets.erase s = ∅
    · refine ⟨by simp [disconnect, hget, hlast, hne], fun v => ?_⟩
      simp [disconnect, hget, hlast]
    · refine ⟨by simp [disconnect, hget, hlast], fun v => ?_⟩
      simp [disconnect, hget, hlast]

theorem socketsOf_disconnect (h : Represents store pairs) (u s v : JsString) :
    socketsOf (disconnect store u s).2 v =
      if v = u then (socketsOf store u).erase s else socketsOf store v := by
  rw [socketsOf, (disconnect_eq h u s).2]
  split
  · split
    · rename_i hempty
      exact hempty.symm
    · rfl
  · rfl

theorem Represents.disconnect (h : Represents store pairs) (u s : JsString) :
    Represents (LocalPresenceStore.disconnect store u s).2 (pairs.erase (u, s)) := by
  obtain ⟨-, hget⟩ := disconnect_eq h u s
  refine ⟨fun v t => ?_, fun v sockets hv => ?_⟩
  · rw [Finset.mem_erase, ne_eq, Prod.mk.injEq, hget]
    split
    · rename_i hv
      subst hv
      have hmem : t ∈ (socketsOf store v).erase s ↔ ¬ (v = v ∧ t = s) ∧ (v, t) ∈ pairs := by
        rw [Finset.mem_erase, h.mem_socketsOf]
        simp
      rw [← hmem]
      split
      · rename_i hempty
        simp [hempty]
      · simp
    · rename_i hv
      simp [hv, h.mem]
  · rw [hget] at hv
    split at hv
    · split at hv
      · cases hv
      · rename_i hne
        obtain rfl := Option.some.inj hv
        exact Finset.nonempty_iff_ne_empty.mpr hne
    · exact h.nonempty v sockets hv

theorem Represents.isOnline (h : Represents store pairs) (u : JsString) :
    LocalPresenceStore.isOnline store u = true ↔ ∃ s, (u, s) ∈ pairs := by
  have hcard : ((store.get u).map Finset.card).getD 0 = (socketsOf store u).card := by
    rw [socketsOf]
    cases store.get u <;> rfl
  rw [LocalPresenceStore.isOnline, decide_eq_true_iff, hcard, gt_iff_lt, Finset.card_pos,
    Finset.nonempty_iff_ne_empty, ne_eq, h.socketsOf_eq_empty, not_not]

/-- A represented store has nothing to filter. -/
theorem Represents.filter_rows (h : Represents store pairs) :
    (store.rows.filter fun entry => entry.2.card > 0) = store.rows := by
  refine List.filter_eq_self.mpr fun entry hentry => ?_
  have hne := h.nonempty entry.1 entry.2 (InsertionMap.get_eq_some.mpr hentry)
  exact decide_eq_true (Finset.card_pos.mpr hne)

theorem Represents.mem_getOnlineUserIds (h : Represents store pairs) {u x : JsString} :
    u ∈ LocalPresenceStore.getOnlineUserIds store x ↔ u ≠ x ∧ ∃ s, (u, s) ∈ pairs := by
  simp only [LocalPresenceStore.getOnlineUserIds, List.mem_map, List.mem_filter,
    decide_eq_true_eq, Prod.exists, exists_and_right, exists_eq_right]
  constructor
  · rintro ⟨sockets, hmem, hne, hcard⟩
    obtain ⟨s, hs⟩ := Finset.card_pos.mp hcard
    exact ⟨hne, s, (h.mem u s).mpr ⟨sockets, InsertionMap.get_eq_some.mpr hmem, hs⟩⟩
  · rintro ⟨hne, s, hs⟩
    obtain ⟨sockets, hget, hs⟩ := (h.mem u s).mp hs
    exact ⟨sockets, InsertionMap.get_eq_some.mp hget, hne, Finset.card_pos.mpr ⟨s, hs⟩⟩

theorem nodup_getOnlineUserIds (store : Store) (x : JsString) :
    (getOnlineUserIds store x).Nodup :=
  store.keys_nodup.sublist (List.filter_sublist.map _)

/-- Rebuilding a store that keeps no empty set yields the same store. -/
theorem Represents.compact (h : Represents store pairs) :
    LocalPresenceStore.compact store = store := by
  have hfresh : ∀ m : Store, (InsertionMap.empty.setAll m.rows).rows = m.rows := fun m =>
    InsertionMap.setAll_rows m.keys_nodup
  refine InsertionMap.eq_of_rows_eq ?_
  rw [LocalPresenceStore.compact, h.filter_rows, hfresh, hfresh]

/-- A request changes the represented pairs as it says. -/
theorem Represents.handle (h : Represents store pairs) (r : Request) :
    Represents (LocalPresenceStore.handle store r).2
      (r.change.elim pairs fun change => change.apply pairs) := by
  cases r with
  | call c =>
    cases c with
    | connect u s => exact h.connect u s
    | disconnect u s => exact h.disconnect u s
  | isOnline u => exact h
  | getOnlineUserIds x => exact h

end Operations

namespace Event

def change : Event → Option (Change (JsString × JsString))
  | request r => r.change
  | compact => none

end Event

/-- The connections and disconnections of a history. -/
def changes (history : List Event) : List (Change (JsString × JsString)) :=
  history.filterMap Event.change

/-- The store after a history that began with the empty store. -/
def storeAfter (history : List Event) : Store := after step InsertionMap.empty history

theorem registered_concat (history : List Event) (event : Event) :
    registered (changes (history ++ [event])) = event.change.elim (registered (changes history))
      fun change => change.apply (registered (changes history)) := by
  rw [changes, changes, List.filterMap_append]
  cases hchange : event.change with
  | none => simp [hchange]
  | some change => simp [hchange]

@[simp] theorem storeAfter_concat (history : List Event) (event : Event) :
    storeAfter (history ++ [event]) = (step (storeAfter history) event).2 := by
  simp [storeAfter]

theorem Represents.step {store : Store} {history : List Event}
    (h : Represents store (registered (changes history))) (event : Event) :
    Represents (LocalPresenceStore.step store event).2
      (registered (changes (history ++ [event]))) := by
  rw [registered_concat]
  cases event with
  | request r => exact h.handle r
  | compact =>
    rw [LocalPresenceStore.step, h.compact]
    exact h

theorem storeAfter_represents (history : List Event) :
    Represents (storeAfter history) (registered (changes history)) :=
  after_history (R := fun history store => Represents store (registered (changes history)))
    represents_empty (fun _ _ event h => h.step event) history

theorem socketsOf_storeAfter {history : List Event} {u s : JsString} :
    s ∈ socketsOf (storeAfter history) u ↔ Connected (changes history) u s :=
  (storeAfter_represents history).mem_socketsOf.trans mem_registered

theorem socketsOf_eq_empty_iff {history : List Event} {u : JsString} :
    socketsOf (storeAfter history) u = ∅ ↔ ¬ Online (changes history) u :=
  (storeAfter_represents history).socketsOf_eq_empty.trans
    (not_congr (exists_congr fun _ => mem_registered))

inductive Transition where
  | online
  | offline
  deriving DecidableEq

/-- The transition of the user that an answered event announces. -/
def transition (userId : JsString) :
    Event × Option (Reply (List JsString)) → Option Transition
  | (.request (.call (.connect u _)), some (.flag true)) =>
    if u = userId then some .online else none
  | (.request (.call (.disconnect u _)), some (.flag true)) =>
    if u = userId then some .offline else none
  | _ => none

/-- The `true` results of the connects and disconnects of the user, in order. -/
def transitions (userId : JsString) (history : List Event) : List Transition :=
  (history.zip (answers step InsertionMap.empty history)).filterMap (transition userId)

/-- Going online and going offline take turns, beginning with the former. -/
def Alternating (ts : List Transition) : Prop :=
  ∀ (i : ℕ) (t : Transition), ts[i]? = some t → (t = .online ↔ i % 2 = 0)

theorem transitions_concat (userId : JsString) (history : List Event) (event : Event) :
    transitions userId (history ++ [event]) = transitions userId history ++
      (transition userId (event, (step (storeAfter history) event).1)).toList := by
  have hlength := length_answers step InsertionMap.empty history
  rw [transitions, answers_append, List.zip_append hlength.symm, List.filterMap_append]
  refine congrArg _ ?_
  simp only [answers, List.zip_cons_cons, List.zip_nil_right, List.filterMap_cons,
    List.filterMap_nil, storeAfter]
  cases transition userId (event, (step (after step InsertionMap.empty history) event).1) <;> rfl

/-- The announced transitions are the changes of being online. -/
theorem transition_step {store : Store} {pairs : Finset (JsString × JsString)}
    (h : Represents store pairs) (userId : JsString) (event : Event) :
    transition userId (event, (step store event).1) =
      if socketsOf store userId = ∅ ∧ socketsOf (step store event).2 userId ≠ ∅ then some .online
      else if socketsOf store userId ≠ ∅ ∧ socketsOf (step store event).2 userId = ∅ then
        some .offline
      else none := by
  cases event with
  | request r =>
    cases r with
    | call c =>
      cases c with
      | connect u s =>
        obtain ⟨hfirst, -⟩ := connect_eq store u s
        have hsockets := socketsOf_connect store u s userId
        by_cases hu : u = userId
        · subst hu
          by_cases hempty : socketsOf store u = ∅ <;>
            simp [step, handle, transition, hfirst, hsockets, hempty]
        · simp only [step, handle, hsockets, if_neg (Ne.symm hu)]
          cases (connect store u s).1 <;> simp [transition, hu]
      | disconnect u s =>
        obtain ⟨hlast, -⟩ := disconnect_eq h u s
        have hsockets := socketsOf_disconnect h u s userId
        by_cases hu : u = userId
        · subst hu
          by_cases hempty : (socketsOf store u).erase s = ∅ <;>
            by_cases hne : socketsOf store u = ∅ <;>
            simp [step, handle, transition, hlast, hsockets, hempty, hne]
        · simp only [step, handle, hsockets, if_neg (Ne.symm hu)]
          cases (disconnect store u s).1 <;> simp [transition, hu]
    | isOnline u => simp [step, handle, transition]
    | getOnlineUserIds x => simp [step, handle, transition]
  | compact => simp [step, transition, h.compact]

theorem Alternating.concat {ts : List Transition} {t : Transition} (h : Alternating ts)
    (ht : t = .online ↔ ts.length % 2 = 0) : Alternating (ts ++ [t]) := by
  intro i t' ht'
  rcases Nat.lt_or_ge i ts.length with hi | hi
  · rw [List.getElem?_append_left hi] at ht'
    exact h i t' ht'
  · rw [List.getElem?_append_right hi, List.getElem?_singleton] at ht'
    split at ht'
    · obtain rfl := Option.some.inj ht'
      have hlength : i = ts.length := by omega
      rw [hlength]
      exact ht
    · cases ht'

/-- The transitions alternate, and their number tells whether the user is online. -/
theorem transitions_alternating (userId : JsString) (history : List Event) :
    Alternating (transitions userId history) ∧
      (socketsOf (storeAfter history) userId = ∅ ↔
        (transitions userId history).length % 2 = 0) := by
  induction history using List.reverseRecOn with
  | nil => exact ⟨by simp [Alternating, transitions], by simp [storeAfter, socketsOf, transitions]⟩
  | append_singleton history event ih =>
    obtain ⟨halternating, hparity⟩ := ih
    rw [transitions_concat, transition_step (storeAfter_represents history), storeAfter_concat]
    split
    · rename_i honline
      refine ⟨halternating.concat (by simpa [← hparity] using honline.1), ?_⟩
      have heven := hparity.mp honline.1
      simp only [Option.toList_some, List.length_append, List.length_singleton, honline.2,
        false_iff]
      omega
    · rename_i honline
      split
      · rename_i hoffline
        refine ⟨halternating.concat (by simpa [← hparity] using hoffline.1), ?_⟩
        have hodd := mt hparity.mpr hoffline.1
        simp only [Option.toList_some, List.length_append, List.length_singleton, hoffline.2,
          true_iff]
        omega
      · rename_i hoffline
        rw [Option.toList_none, List.append_nil]
        refine ⟨halternating, Iff.trans ?_ hparity⟩
        tauto

/-- The store behaves like the set of pairs that are connected after the history. -/
structure Refines (history : List Event) (store : Store) : Prop where
  isOnline : ∀ u, isOnline store u = true ↔ Online (changes history) u
  connect : ∀ u s, (connect store u s).1 = true ↔ ¬ Online (changes history) u
  disconnect : ∀ u s, (disconnect store u s).1 = true ↔
    Connected (changes history) u s ∧ ∀ t, Connected (changes history) u t → t = s
  transitions : ∀ u, Alternating (transitions u history)
  getOnlineUserIds : ∀ x, (getOnlineUserIds store x).Nodup ∧
    ∀ u, u ∈ getOnlineUserIds store x ↔ u ≠ x ∧ Online (changes history) u
  nonempty : ∀ u sockets, store.get u = some sockets → sockets.Nonempty
  compact : ∀ later, answers step (compact store) later = answers step store later

theorem storeAfter_refines (history : List Event) : Refines history (storeAfter history) := by
  have h := storeAfter_represents history
  have honline : ∀ u, (∃ s, (u, s) ∈ registered (changes history)) ↔
      Online (changes history) u := fun u => exists_congr fun s => mem_registered
  refine ⟨fun u => (h.isOnline u).trans (honline u), fun u s => ?_, fun u s => ?_, fun u => ?_,
    fun x => ?_, h.nonempty, fun later => ?_⟩
  · rw [(connect_eq _ u s).1, decide_eq_true_iff, socketsOf_eq_empty_iff]
  · rw [(disconnect_eq h u s).1, decide_eq_true_iff, Finset.erase_eq_empty_iff]
    constructor
    · rintro ⟨hne, hempty | hsingleton⟩
      · exact absurd hempty hne
      · refine ⟨socketsOf_storeAfter.mp (by simp [hsingleton]), fun t ht => ?_⟩
        simpa [hsingleton] using socketsOf_storeAfter.mpr ht
    · rintro ⟨hs, hall⟩
      have hsingleton : socketsOf (storeAfter history) u = {s} := by
        refine Finset.eq_singleton_iff_unique_mem.mpr ⟨socketsOf_storeAfter.mpr hs, ?_⟩
        exact fun t ht => hall t (socketsOf_storeAfter.mp ht)
      simp [hsingleton]
  · exact (transitions_alternating u history).1
  · refine ⟨nodup_getOnlineUserIds _ x, fun u => ?_⟩
    rw [h.mem_getOnlineUserIds, honline]
  · rw [h.compact]

end ChatMicroservices.LocalPresenceStore

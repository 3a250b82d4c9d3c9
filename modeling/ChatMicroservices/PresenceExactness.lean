import ChatMicroservices.ConcurrentPrograms
import ChatMicroservices.PresenceStore
import Mathlib.Algebra.BigOperators.Ring.Finset
import Mathlib.Algebra.Order.Group.Int

/-!
# Presence under concurrent connects and disconnects

Calls of `connect` and `disconnect` from any number of nodes, interleaved command by command.
A socket is connected once, and disconnected at most once after its connect has returned. The
stage of a call records what its command on the user's sockets did: whether it was the first
socket, or the last. Presence is exact as long as every count still says the same.
-/

namespace ChatMicroservices.PresenceExactness
open JavaScriptValues EffectPrograms ConcurrentPrograms PresenceStore

/-- How far a call has come. `counted` says whether a connect added the first socket of its
user, or a disconnect removed the last one. -/
inductive Stage where
  | waiting
  | begun
  | counted (verdict : Bool)
  | updated
  | returned (result : Bool)
  deriving DecidableEq

namespace Stage

/-- The call has added or removed its socket. -/
def Effective : Stage → Prop
  | waiting | begun => False
  | counted _ | updated | returned _ => True

/-- The call has not begun, or has returned. -/
def Quiet : Stage → Prop
  | waiting | returned _ => True
  | begun | counted _ | updated => False

instance : DecidablePred Quiet := fun stage => by
  unfold Quiet
  split <;> infer_instance

/-- One for a call that is to return `true`. -/
def credit : Stage → ℤ
  | counted true | updated | returned true => 1
  | waiting | begun | counted false | returned false => 0

end Stage

/-- The sets of the server, and the calls that have begun with their stages. -/
structure Presence (ι : Type) where
  sets : Sets
  began : Finset ι
  stage : ι → Stage

variable {ι : Type}

namespace Presence

def sockets (s : Presence ι) (userId : JsString) : Finset JsString := s.sets (keySockets userId)

def online (s : Presence ι) : Finset JsString := s.sets keyOnline

/-- A call is admitted if it connects a new socket, or disconnects for the first time one
whose connect has returned. -/
def Admits (calls : ι → Call) (s : Presence ι) : Call → Prop
  | .connect _ socketId => ∀ j ∈ s.began, match calls j with
    | .connect _ other => other ≠ socketId
    | .disconnect _ _ => True
  | .disconnect userId socketId =>
    (∃ j ∈ s.began, calls j = .connect userId socketId ∧
      (s.stage j = .returned true ∨ s.stage j = .returned false)) ∧
    ∀ j ∈ s.began, match calls j with
      | .connect _ _ => True
      | .disconnect _ other => other ≠ socketId

instance (calls : ι → Call) (s : Presence ι) (call : Call) : Decidable (s.Admits calls call) := by
  cases call with
  | connect _ socketId =>
    refine @Finset.decidableDforallFinset _ _ _ fun j _ => ?_
    split <;> infer_instance
  | disconnect userId socketId =>
    refine @instDecidableAnd _ _ inferInstance
      (@Finset.decidableDforallFinset _ _ _ fun j _ => ?_)
    split <;> infer_instance

variable [DecidableEq ι]

def move (s : Presence ι) (i : ι) (stage : Stage) : Presence ι :=
  { s with stage := Function.update s.stage i stage }

def store (s : Presence ι) (key : JsString) (members : Finset JsString) : Presence ι :=
  { s with sets := Function.update s.sets key members }

end Presence

variable [DecidableEq ι]

/-- Redis without failures and without expiry. -/
def exec (calls : ι → Call) : Semantics ι Unit (Presence ι) Ans
  | i, _, .sadd key member, s =>
    some (.ok (if member ∈ s.sets key then 0 else 1),
      (s.store key (insert member (s.sets key))).move i
        (if key = keyOnline then .updated else .counted (s.sets key = ∅)))
  | i, _, .srem key member, s =>
    some (.ok (if member ∈ s.sets key then 1 else 0),
      (s.store key ((s.sets key).erase member)).move i
        (if key = keyOnline then .updated else .counted ((s.sets key).erase member = ∅)))
  | _, _, .scard key, s => some (.ok (s.sets key).card, s)
  | _, _, .sismember key member, s => some (.ok (if member ∈ s.sets key then 1 else 0), s)
  | _, _, .smembers key, s => some (.ok (s.sets key), s)
  | _, _, .expire key _, s => some (.ok (if s.sets key = ∅ then 0 else 1), s)
  | i, _, .begin, s =>
    if s.Admits calls (calls i) then
      some ((), { s with began := insert i s.began }.move i .begun)
    else none
  | i, _, .finish result, s => some ((), s.move i (.returned result))

/-- The count with which a call returns `true`. -/
def threshold : Call → ℕ
  | .connect _ _ => 1
  | .disconnect _ _ => 0

/-- No other call has changed the verdict: a connect counts one socket exactly if it added
the first, a disconnect counts none exactly if it removed the last, and a user who is taken
from `ps:online` still has no socket. -/
def Undisturbed (calls : ι → Call) : ι → Op → Presence ι → Prop
  | i, .scard key, s =>
    (s.stage i = .counted true → (s.sets key).card = threshold (calls i)) ∧
      (s.stage i = .counted false → (s.sets key).card ≠ threshold (calls i))
  | _, .srem key member, s => key = keyOnline → s.sets (keySockets member) = ∅
  | _, _, _ => True

instance (calls : ι → Call) (i : ι) (op : Op) (s : Presence ι) :
    Decidable (Undisturbed calls i op s) := by
  unfold Undisturbed
  split <;> infer_instance

/-- The socket has been added by its connect and not yet removed by its disconnect. -/
def Connected (calls : ι → Call) (stage : ι → Stage) (userId socketId : JsString) : Prop :=
  (∃ i, calls i = .connect userId socketId ∧ (stage i).Effective) ∧
    ¬ ∃ i, calls i = .disconnect userId socketId ∧ (stage i).Effective

/-- What a call contributes to the balance of a user. -/
def credit (calls : ι → Call) (userId : JsString) (stage : ι → Stage) (i : ι) : ℤ :=
  match calls i with
  | .connect user _ => if user = userId then (stage i).credit else 0
  | .disconnect user _ => if user = userId then -(stage i).credit else 0

structure Inv (calls : ι → Call) (s : Presence ι) : Prop where
  began : ∀ i, i ∈ s.began ↔ s.stage i ≠ .waiting
  connects : ∀ i j u v x, i ∈ s.began → j ∈ s.began → calls i = .connect u x →
    calls j = .connect v x → i = j
  disconnects : ∀ i j u v x, i ∈ s.began → j ∈ s.began → calls i = .disconnect u x →
    calls j = .disconnect v x → i = j
  after : ∀ j ∈ s.began, ∀ u x, calls j = .disconnect u x →
    ∃ i ∈ s.began, calls i = .connect u x ∧ ∃ result, s.stage i = .returned result
  members : ∀ u x, x ∈ s.sockets u ↔ Connected calls s.stage u x
  balance : ∀ u, ∑ i ∈ s.began, credit calls u s.stage i = if s.sockets u = ∅ then 0 else 1
  entering : ∀ u, s.sockets u ≠ ∅ → u ∈ s.online ∨
    ∃ i x, calls i = .connect u x ∧ s.stage i = .counted true
  leaving : ∀ u, s.sockets u = ∅ → u ∉ s.online ∨
    ∃ i x, calls i = .disconnect u x ∧ s.stage i = .counted true

theorem sum_credit_update {calls : ι → Call} {began : Finset ι} {i : ι} (hi : i ∈ began)
    (userId : JsString) (stage : ι → Stage) (st : Stage) :
    ∑ j ∈ began, credit calls userId (Function.update stage i st) j =
      ∑ j ∈ began, credit calls userId stage j +
        (credit calls userId (Function.update stage i st) i - credit calls userId stage i) := by
  have hrest : ∑ j ∈ began.erase i, credit calls userId (Function.update stage i st) j =
      ∑ j ∈ began.erase i, credit calls userId stage j := by
    refine Finset.sum_congr rfl fun j hj => ?_
    simp only [credit, Function.update_of_ne (Finset.ne_of_mem_erase hj)]
  rw [← Finset.add_sum_erase _ _ hi, ← Finset.add_sum_erase began (credit calls userId stage) hi,
    hrest]
  omega

/-- A call that moves on from a stage that no witness needs leaves the witnesses alone. -/
theorem counted_update {stage : ι → Stage} {i k : ι} {st : Stage} (hi : stage i ≠ .counted true)
    (hk : stage k = .counted true) : Function.update stage i st k = .counted true := by
  have hne : k ≠ i := by
    rintro rfl
    exact hi hk
  rw [Function.update_of_ne hne, hk]

theorem stage_of_other_user {calls : ι → Call} {i k : ι}
    (h : (calls k).userId ≠ (calls i).userId) (stage : ι → Stage) (st : Stage) :
    Function.update stage i st k = stage k := by
  refine Function.update_of_ne ?_ _ _
  rintro rfl
  exact h rfl

theorem connected_update {calls : ι → Call} {stage : ι → Stage} {i : ι} {st : Stage}
    (h : st.Effective ↔ (stage i).Effective) (userId socketId : JsString) :
    Connected calls (Function.update stage i st) userId socketId ↔
      Connected calls stage userId socketId := by
  have heffective : ∀ j, (Function.update stage i st j).Effective ↔ (stage j).Effective := by
    intro j
    by_cases hj : j = i
    · subst hj
      rwa [Function.update_self]
    · rw [Function.update_of_ne hj]
  simp only [Connected, heffective]

theorem connected_update_other {calls : ι → Call} {stage : ι → Stage} {i : ι} {st : Stage}
    {userId socketId : JsString} (hconnect : calls i ≠ .connect userId socketId)
    (hdisconnect : calls i ≠ .disconnect userId socketId) :
    Connected calls (Function.update stage i st) userId socketId ↔
      Connected calls stage userId socketId := by
  have hne : ∀ j, (calls j = .connect userId socketId ∨ calls j = .disconnect userId socketId) →
      Function.update stage i st j = stage j := by
    intro j hj
    refine Function.update_of_ne ?_ st stage
    rintro rfl
    rcases hj with hj | hj
    · exact hconnect hj
    · exact hdisconnect hj
  unfold Connected
  refine and_congr (exists_congr fun j => and_congr_right fun hj => ?_)
    (not_congr (exists_congr fun j => and_congr_right fun hj => ?_))
  · rw [hne j (.inl hj)]
  · rw [hne j (.inr hj)]

section Steps

variable {calls : ι → Call} {s : Presence ι} {i : ι}

/-- A step of a call that is in progress; what is left to show is about the sets. -/
theorem Inv.step (hs : Inv calls s) {st : Stage} (sets : Sets) (hi : ¬ (s.stage i).Quiet)
    (hst : st ≠ .waiting)
    (hmembers : ∀ u x, x ∈ sets (keySockets u) ↔
      Connected calls (Function.update s.stage i st) u x)
    (hbalance : ∀ u, (if s.sockets u = ∅ then 0 else 1) +
      (credit calls u (Function.update s.stage i st) i - credit calls u s.stage i) =
        if sets (keySockets u) = ∅ then 0 else 1)
    (hentering : ∀ u, sets (keySockets u) ≠ ∅ → u ∈ sets keyOnline ∨
      ∃ k x, calls k = .connect u x ∧ Function.update s.stage i st k = .counted true)
    (hleaving : ∀ u, sets (keySockets u) = ∅ → u ∉ sets keyOnline ∨
      ∃ k x, calls k = .disconnect u x ∧ Function.update s.stage i st k = .counted true) :
    Inv calls ⟨sets, s.began, Function.update s.stage i st⟩ := by
  have hbegan : i ∈ s.began := (hs.began i).mpr fun h => hi (by simp [h, Stage.Quiet])
  refine ⟨fun j => ?_, hs.connects, hs.disconnects, fun j hj u x hcall => ?_, hmembers,
    fun u => ?_, hentering, hleaving⟩
  · by_cases hj : j = i
    · subst hj
      simpa [hst] using hbegan
    · simp only [Function.update_of_ne hj]
      exact hs.began j
  · obtain ⟨k, hk, hconnect, result, hresult⟩ := hs.after j hj u x hcall
    have hki : k ≠ i := by
      rintro rfl
      exact hi (by simp [hresult, Stage.Quiet])
    exact ⟨k, hk, hconnect, result, (Function.update_of_ne hki _ _).trans hresult⟩
  · rw [sum_credit_update hbegan, hs.balance u]
    exact hbalance u

omit [DecidableEq ι] in
/-- A begun disconnect comes after the return of the connect of its socket. -/
theorem not_effective_disconnect (hs : Inv calls s) {u x : JsString}
    (hcall : calls i = .connect u x) (hi : ¬ (s.stage i).Quiet) :
    ¬ ∃ j, calls j = .disconnect u x ∧ (s.stage j).Effective := by
  rintro ⟨j, hj, heffective⟩
  have hjbegan : j ∈ s.began := (hs.began j).mpr fun h => by simp [h, Stage.Effective] at heffective
  have hibegan : i ∈ s.began := (hs.began i).mpr fun h => hi (by simp [h, Stage.Quiet])
  obtain ⟨k, hk, hconnect, result, hresult⟩ := hs.after j hjbegan u x hj
  obtain rfl := hs.connects k i u u x hk hibegan hconnect hcall
  exact hi (by simp [hresult, Stage.Quiet])

omit [DecidableEq ι] in
/-- The socket of a connect in progress stays in its set. -/
theorem socket_mem (hs : Inv calls s) {u x : JsString} (hcall : calls i = .connect u x)
    (hi : ¬ (s.stage i).Quiet) (heffective : (s.stage i).Effective) : x ∈ s.sockets u :=
  (hs.members u x).mpr ⟨⟨i, hcall, heffective⟩, not_effective_disconnect hs hcall hi⟩

/-- A user with a socket stays accounted for while other calls move on. -/
theorem entering_update (hs : Inv calls s) (hi : s.stage i ≠ .counted true) (st : Stage)
    {u : JsString} (hu : s.sockets u ≠ ∅) : u ∈ s.online ∨
      ∃ k x, calls k = .connect u x ∧ Function.update s.stage i st k = .counted true := by
  rcases hs.entering u hu with h | ⟨k, x, hk, hstage⟩
  · exact .inl h
  · exact .inr ⟨k, x, hk, counted_update hi hstage⟩

theorem leaving_update (hs : Inv calls s) (hi : s.stage i ≠ .counted true) (st : Stage)
    {u : JsString} (hu : s.sockets u = ∅) : u ∉ s.online ∨
      ∃ k x, calls k = .disconnect u x ∧ Function.update s.stage i st k = .counted true := by
  rcases hs.leaving u hu with h | ⟨k, x, hk, hstage⟩
  · exact .inl h
  · exact .inr ⟨k, x, hk, counted_update hi hstage⟩

/-- Calls that are alone with their socket stay alone when a call of a new socket begins. -/
theorem eq_of_mem_insert {began : Finset ι} {P : ι → ι → Prop} {j k : ι}
    (hold : j ∈ began → k ∈ began → P j k → j = k)
    (hnew : ∀ l ∈ began, ¬ P i l ∧ ¬ P l i)
    (hj : j ∈ insert i began) (hk : k ∈ insert i began) (h : P j k) : j = k := by
  rcases Finset.mem_insert.mp hj with rfl | hj' <;>
    rcases Finset.mem_insert.mp hk with rfl | hk'
  · rfl
  · exact absurd h (hnew k hk').1
  · exact absurd h (hnew j hj').2
  · exact hold hj' hk' h

theorem inv_begin (hs : Inv calls s) (hi : s.stage i = .waiting)
    (hadmits : s.Admits calls (calls i)) :
    Inv calls ({ s with began := insert i s.began }.move i .begun) := by
  have hnew : i ∉ s.began := fun h => (hs.began i).mp h hi
  have hother : ∀ j ∈ s.began, Function.update s.stage i .begun j = s.stage j := by
    intro j hj
    refine Function.update_of_ne ?_ Stage.begun s.stage
    rintro rfl
    exact hnew hj
  have hcounted : s.stage i ≠ .counted true := by simp [hi]
  refine ⟨fun j => ?_, fun j k u v x hj hk hcj hck => ?_, fun j k u v x hj hk hcj hck => ?_,
    fun j hj u x hcall => ?_, fun u x => ?_, fun u => ?_, fun u hu => ?_, fun u hu => ?_⟩
  · by_cases hj : j = i
    · subst hj
      simp [Presence.move]
    · simp [Presence.move, hj, hs.began j]
  · refine eq_of_mem_insert (P := fun j k => calls j = .connect u x ∧ calls k = .connect v x)
      (fun hj hk h => hs.connects j k u v x hj hk h.1 h.2) (fun l hl => ⟨?_, ?_⟩) hj hk ⟨hcj, hck⟩
    · rintro ⟨hci, hcl⟩
      have h := (hci ▸ hadmits) l hl
      simp [hcl] at h
    · rintro ⟨hcl, hci⟩
      have h := (hci ▸ hadmits) l hl
      simp [hcl] at h
  · refine eq_of_mem_insert
      (P := fun j k => calls j = .disconnect u x ∧ calls k = .disconnect v x)
      (fun hj hk h => hs.disconnects j k u v x hj hk h.1 h.2) (fun l hl => ⟨?_, ?_⟩) hj hk
      ⟨hcj, hck⟩
    · rintro ⟨hci, hcl⟩
      have h := (hci ▸ hadmits).2 l hl
      simp [hcl] at h
    · rintro ⟨hcl, hci⟩
      have h := (hci ▸ hadmits).2 l hl
      simp [hcl] at h
  · rcases Finset.mem_insert.mp hj with rfl | hj
    · obtain ⟨⟨k, hk, hconnect, hreturned⟩, -⟩ := hcall ▸ hadmits
      refine ⟨k, Finset.mem_insert_of_mem hk, hconnect, ?_⟩
      simp only [Presence.move, hother k hk]
      rcases hreturned with h | h
      · exact ⟨true, h⟩
      · exact ⟨false, h⟩
    · obtain ⟨k, hk, hconnect, result, hresult⟩ := hs.after j hj u x hcall
      exact ⟨k, Finset.mem_insert_of_mem hk, hconnect, result, (hother k hk).trans hresult⟩
  · refine (hs.members u x).trans (connected_update ?_ u x).symm
    simp [hi, Stage.Effective]
  · have hsum : ∑ j ∈ s.began, credit calls u (Function.update s.stage i .begun) j =
        ∑ j ∈ s.began, credit calls u s.stage j :=
      Finset.sum_congr rfl fun j hj => by simp only [credit, hother j hj]
    have hzero : credit calls u (Function.update s.stage i .begun) i = 0 := by
      unfold credit
      split <;> simp [Stage.credit]
    simp only [Presence.move]
    rw [Finset.sum_insert hnew, hsum, hzero, zero_add]
    exact hs.balance u
  · exact entering_update hs hcounted .begun hu
  · exact leaving_update hs hcounted .begun hu

omit [DecidableEq ι] in
theorem sockets_update_self (sets : Sets) (userId : JsString) (members : Finset JsString) :
    Function.update sets (keySockets userId) members (keySockets userId) = members :=
  Function.update_self _ _ _

omit [DecidableEq ι] in
theorem sockets_update_other {userId other : JsString} (h : other ≠ userId) (sets : Sets)
    (members : Finset JsString) :
    Function.update sets (keySockets userId) members (keySockets other) =
      sets (keySockets other) :=
  Function.update_of_ne (fun heq => h (keySockets_inj.mp heq)) _ _

/-- A connect adds its socket. -/
theorem inv_connect (hs : Inv calls s) {u x : JsString} (hcall : calls i = .connect u x)
    (hi : s.stage i = .begun) :
    Inv calls ((s.store (keySockets u) (insert x (s.sockets u))).move i
      (.counted (s.sockets u = ∅))) := by
  have hquiet : ¬ (s.stage i).Quiet := by simp [hi, Stage.Quiet]
  have hcounted : s.stage i ≠ .counted true := by simp [hi]
  refine hs.step (Function.update s.sets (keySockets u) (insert x (s.sockets u))) hquiet (by simp)
    (fun v y => ?_) (fun v => ?_) (fun v hv => ?_) (fun v hv => ?_)
  · by_cases hv : v = u
    · subst hv
      rw [sockets_update_self, Finset.mem_insert]
      by_cases hy : y = x
      · subst hy
        refine iff_of_true (.inl rfl) ⟨⟨i, hcall, by simp [Stage.Effective]⟩, ?_⟩
        rintro ⟨j, hj, heffective⟩
        have hji : j ≠ i := by
          rintro rfl
          simp [hcall] at hj
        rw [Function.update_of_ne hji] at heffective
        exact not_effective_disconnect hs hcall hquiet ⟨j, hj, heffective⟩
      · rw [connected_update_other (by simp [hcall, Ne.symm hy]) (by simp [hcall])]
        simpa [hy] using hs.members v y
    · rw [sockets_update_other hv,
        connected_update_other (by simp [hcall, Ne.symm hv]) (by simp [hcall])]
      exact hs.members v y
  · by_cases hv : v = u
    · subst hv
      by_cases hempty : s.sockets v = ∅ <;> simp [credit, hcall, hi, hempty, Stage.credit]
    · rw [sockets_update_other hv]
      simp only [credit, hcall, if_neg (Ne.symm hv), sub_self, add_zero]
      rfl
  · rw [Function.update_of_ne (keyOnline_ne_keySockets u)]
    by_cases hnew : v = u ∧ s.sockets v = ∅
    · obtain ⟨rfl, hempty⟩ := hnew
      exact .inr ⟨i, x, hcall, by simp [hempty]⟩
    · have hold : s.sockets v ≠ ∅ := by
        by_cases hvu : v = u
        · exact fun h => hnew ⟨hvu, h⟩
        · rwa [sockets_update_other hvu] at hv
      exact entering_update hs hcounted _ hold
  · rw [Function.update_of_ne (keyOnline_ne_keySockets u)]
    by_cases hvu : v = u
    · subst hvu
      simp at hv
    · rw [sockets_update_other hvu] at hv
      exact leaving_update hs hcounted _ hv

/-- A disconnect removes its socket, which was there. -/
theorem inv_disconnect (hs : Inv calls s) {u x : JsString} (hcall : calls i = .disconnect u x)
    (hi : s.stage i = .begun) :
    Inv calls ((s.store (keySockets u) ((s.sockets u).erase x)).move i
      (.counted ((s.sockets u).erase x = ∅))) := by
  have hquiet : ¬ (s.stage i).Quiet := by simp [hi, Stage.Quiet]
  have hcounted : s.stage i ≠ .counted true := by simp [hi]
  have hbegan : i ∈ s.began := (hs.began i).mpr (by simp [hi])
  have hpresent : x ∈ s.sockets u := by
    obtain ⟨k, hk, hconnect, result, hresult⟩ := hs.after i hbegan u x hcall
    refine (hs.members u x).mpr ⟨⟨k, hconnect, by simp [hresult, Stage.Effective]⟩, ?_⟩
    rintro ⟨j, hj, heffective⟩
    have hjbegan : j ∈ s.began :=
      (hs.began j).mpr fun h => by simp [h, Stage.Effective] at heffective
    obtain rfl := hs.disconnects j i u u x hjbegan hbegan hj hcall
    simp [hi, Stage.Effective] at heffective
  have hnonempty : s.sockets u ≠ ∅ := Finset.ne_empty_of_mem hpresent
  refine hs.step (Function.update s.sets (keySockets u) ((s.sockets u).erase x)) hquiet (by simp)
    (fun v y => ?_) (fun v => ?_) (fun v hv => ?_) (fun v hv => ?_)
  · by_cases hv : v = u
    · subst hv
      rw [sockets_update_self, Finset.mem_erase]
      by_cases hy : y = x
      · subst hy
        refine iff_of_false (fun h => h.1 rfl) fun h => h.2 ⟨i, hcall, ?_⟩
        simp [Stage.Effective]
      · rw [connected_update_other (by simp [hcall]) (by simp [hcall, Ne.symm hy])]
        simpa [hy] using hs.members v y
    · rw [sockets_update_other hv,
        connected_update_other (by simp [hcall]) (by simp [hcall, Ne.symm hv])]
      exact hs.members v y
  · by_cases hv : v = u
    · subst hv
      by_cases hempty : (s.sockets v).erase x = ∅ <;>
        simp [credit, hcall, hi, hempty, hnonempty, Stage.credit]
    · rw [sockets_update_other hv]
      simp only [credit, hcall, if_neg (Ne.symm hv), sub_self, add_zero]
      rfl
  · rw [Function.update_of_ne (keyOnline_ne_keySockets u)]
    have hold : s.sockets v ≠ ∅ := by
      by_cases hvu : v = u
      · exact hvu ▸ hnonempty
      · rwa [sockets_update_other hvu] at hv
    exact entering_update hs hcounted _ hold
  · rw [Function.update_of_ne (keyOnline_ne_keySockets u)]
    by_cases hvu : v = u
    · subst hvu
      rw [sockets_update_self] at hv
      exact .inr ⟨i, x, hcall, by simp [hv]⟩
    · rw [sockets_update_other hvu] at hv
      exact leaving_update hs hcounted _ hv

/-- A call that was the first or the last one of its user brings the set of online users up to
date; nothing changes for the other users. -/
theorem inv_online (hs : Inv calls s) {u : JsString} (hcall : (calls i).userId = u)
    (hi : s.stage i = .counted true) {online : Finset JsString}
    (hsame : ∀ v, v ≠ u → (v ∈ online ↔ v ∈ s.online))
    (honline : u ∈ online ↔ s.sockets u ≠ ∅) :
    Inv calls ((s.store keyOnline online).move i .updated) := by
  have hquiet : ¬ (s.stage i).Quiet := by simp [hi, Stage.Quiet]
  have hsets : ∀ v, Function.update s.sets keyOnline online (keySockets v) = s.sockets v :=
    fun v => Function.update_of_ne (keySockets_ne_keyOnline v) _ _
  have hother : ∀ v k, v ≠ u → (calls k).userId = v →
      Function.update s.stage i .updated k = s.stage k := by
    intro v k hv hk
    exact stage_of_other_user (by rwa [hk, hcall]) _ _
  refine hs.step (Function.update s.sets keyOnline online) hquiet (by simp)
    (fun v y => ?_) (fun v => ?_) (fun v hv => ?_) (fun v hv => ?_)
  · rw [hsets, connected_update (by simp [hi, Stage.Effective])]
    exact hs.members v y
  · rw [hsets]
    simp [credit, hi, Stage.credit]
  · rw [Function.update_self]
    rw [hsets] at hv
    by_cases hvu : v = u
    · exact .inl (hvu ▸ honline.mpr (hvu ▸ hv))
    · rcases hs.entering v hv with h | ⟨k, y, hk, hstage⟩
      · exact .inl ((hsame v hvu).mpr h)
      · exact .inr ⟨k, y, hk, (hother v k hvu (congrArg Call.userId hk)).trans hstage⟩
  · rw [Function.update_self]
    rw [hsets] at hv
    by_cases hvu : v = u
    · exact .inl fun h => honline.mp (hvu ▸ h) (hvu ▸ hv)
    · rcases hs.leaving v hv with h | ⟨k, y, hk, hstage⟩
      · exact .inl (mt (hsame v hvu).mp h)
      · exact .inr ⟨k, y, hk, (hother v k hvu (congrArg Call.userId hk)).trans hstage⟩

/-- A connect that added the first socket puts its user online. -/
theorem inv_enter (hs : Inv calls s) {u x : JsString} (hcall : calls i = .connect u x)
    (hi : s.stage i = .counted true) :
    Inv calls ((s.store keyOnline (insert u s.online)).move i .updated) := by
  have hmem := socket_mem hs hcall (by simp [hi, Stage.Quiet]) (by simp [hi, Stage.Effective])
  have huser : (calls i).userId = u := congrArg Call.userId hcall
  refine inv_online hs huser hi (fun v hv => ?_) ?_
  · rw [Finset.mem_insert, or_iff_right hv]
  · exact iff_of_true (Finset.mem_insert_self u _) (Finset.ne_empty_of_mem hmem)

/-- A disconnect that removed the last socket takes its user from the online users. -/
theorem inv_leave (hs : Inv calls s) {u x : JsString} (hcall : calls i = .disconnect u x)
    (hi : s.stage i = .counted true) (hempty : s.sockets u = ∅) :
    Inv calls ((s.store keyOnline (s.online.erase u)).move i .updated) := by
  have huser : (calls i).userId = u := congrArg Call.userId hcall
  refine inv_online hs huser hi (fun v hv => ?_) ?_
  · rw [Finset.mem_erase, and_iff_right hv]
  · exact iff_of_false (Finset.notMem_erase u _) (not_not.mpr hempty)

/-- A call returns what its verdict was. -/
theorem inv_finish (hs : Inv calls s) {result : Bool}
    (hi : s.stage i = if result then .updated else .counted false) :
    Inv calls (s.move i (.returned result)) := by
  have hquiet : ¬ (s.stage i).Quiet := by cases result <;> simp [hi, Stage.Quiet]
  have hcounted : s.stage i ≠ .counted true := by cases result <;> simp [hi]
  have hcredit : (Stage.returned result).credit = (s.stage i).credit := by
    cases result <;> simp [hi, Stage.credit]
  refine hs.step s.sets hquiet (by simp) (fun v y => ?_) (fun v => ?_) (fun v hv => ?_)
    (fun v hv => ?_)
  · rw [connected_update (by cases result <;> simp [hi, Stage.Effective])]
    exact hs.members v y
  · simp only [credit, Function.update_self, hcredit, sub_self, add_zero]
    rfl
  · exact entering_update hs hcounted _ hv
  · exact leaving_update hs hcounted _ hv

end Steps

/-- A call relies on nothing but its own stage. -/
def protocol (calls : ι → Call) : Protocol ι (Presence ι) where
  inv := Inv calls
  rely i s t := t.stage i = s.stage i
  guar i s t := ∀ j, j ≠ i → t.stage j = s.stage j
  rely_refl _ _ := rfl
  rely_trans _ := fun h h' => h'.trans h
  compatible hij := fun _ hg => hg _ hij

section Safety

variable {calls : ι → Call} {s : Presence ι} {i : ι}

/-- The stage with which the body of a call ends. -/
def Ended (i : ι) (r : Except JsError Bool) (s : Presence ι) : Prop :=
  ∃ result, r = .ok result ∧ s.stage i = if result then .updated else .counted false

theorem move_guarantee (s t : Presence ι) (i : ι) (stage : Stage) (h : t.stage = s.stage) :
    (protocol calls).guar i s (t.move i stage) := by
  intro j hj
  simp only [Presence.move, Function.update_of_ne hj, h]

/-- Without failures the `catch` block is not reached. -/
theorem handled_safe {p : Handler Bool} {handler : JsError → Handler Bool} (hinv : Inv calls s)
    (h : Safe (exec calls) (Undisturbed calls) (protocol calls) i (Ended i) p s) :
    Safe (exec calls) (Undisturbed calls) (protocol calls) i (Ended i) (p.tryCatch handler) s := by
  refine h.tryCatch (fun _ _ _ h => h) ?_ hinv
  rintro e t - ⟨result, h, -⟩
  cases h

/-- The end of both methods: a call answers what its count says, and an undisturbed count says
what the verdict of the call was. -/
theorem answer_safe {key : JsString} {n : ℕ} {verdict : Bool} {move : Handler Bool}
    (hn : threshold (calls i) = n) (hi : s.stage i = .counted verdict)
    (hmove : ∀ t, t.stage i = .counted true →
      Safe (exec calls) (Undisturbed calls) (protocol calls) i (Ended i) move t) :
    Safe (exec calls) (Undisturbed calls) (protocol calls) i (Ended i)
      ((Program.attempt (perform (.scard key))).bind fun count =>
        if count = n then move else pure false) s := by
  intro t hst ht hok c a t' hx
  simp only [exec, Option.some.injEq, Prod.mk.injEq] at hx
  obtain ⟨rfl, rfl⟩ := hx
  have hcounted : t.stage i = .counted verdict := hst.trans hi
  refine ⟨ht, fun _ _ => rfl, ?_⟩
  dsimp only [Program.bind_ok]
  cases verdict with
  | false =>
    have hcard : (t.sets key).card ≠ n := hn ▸ hok.2 hcounted
    rw [if_neg hcard]
    exact fun u hu _ => ⟨false, rfl, hu.trans hcounted⟩
  | true =>
    have hcard : (t.sets key).card = n := hn ▸ hok.1 hcounted
    rw [if_pos hcard]
    exact hmove t hcounted

theorem connect_safe {u x : JsString} (hcall : calls i = .connect u x)
    (hi : s.stage i = .begun) (hinv : Inv calls s) :
    Safe (exec calls) (Undisturbed calls) (protocol calls) i (Ended i) (connect u x) s := by
  refine handled_safe hinv ?_
  intro t hst ht _ c a v hx
  have hbegun : t.stage i = .begun := hst.trans hi
  simp only [exec, keySockets_ne_keyOnline, if_false, Option.some.injEq, Prod.mk.injEq] at hx
  obtain ⟨rfl, rfl⟩ := hx
  refine ⟨inv_connect ht hcall hbegun, move_guarantee _ _ _ _ rfl, ?_⟩
  intro t' hst' ht' _ c' a' v' hx'
  simp only [exec, Option.some.injEq, Prod.mk.injEq] at hx'
  obtain ⟨rfl, rfl⟩ := hx'
  refine ⟨ht', fun _ _ => rfl, ?_⟩
  have hcounted : t'.stage i = .counted (decide (t.sets (keySockets u) = ∅)) :=
    hst'.trans (Function.update_self _ _ _)
  refine answer_safe (by simp [hcall, threshold]) hcounted fun w hw => ?_
  intro z hz hzinv _ d b z' hx
  simp only [exec, if_true, Option.some.injEq, Prod.mk.injEq] at hx
  obtain ⟨rfl, rfl⟩ := hx
  refine ⟨inv_enter hzinv hcall (hz.trans hw), move_guarantee _ _ _ _ rfl, ?_⟩
  exact fun y hy _ => ⟨true, rfl, hy.trans (Function.update_self _ _ _)⟩

theorem disconnect_safe {u x : JsString} (hcall : calls i = .disconnect u x)
    (hi : s.stage i = .begun) (hinv : Inv calls s) :
    Safe (exec calls) (Undisturbed calls) (protocol calls) i (Ended i) (disconnect u x) s := by
  refine handled_safe hinv ?_
  intro t hst ht _ c a v hx
  have hbegun : t.stage i = .begun := hst.trans hi
  simp only [exec, keySockets_ne_keyOnline, if_false, Option.some.injEq, Prod.mk.injEq] at hx
  obtain ⟨rfl, rfl⟩ := hx
  refine ⟨inv_disconnect ht hcall hbegun, move_guarantee _ _ _ _ rfl, ?_⟩
  refine answer_safe (by simp [hcall, threshold]) (Function.update_self _ _ _) fun w hw => ?_
  intro z hz hzinv hempty d b z' hx
  simp only [exec, if_true, Option.some.injEq, Prod.mk.injEq] at hx
  obtain ⟨rfl, rfl⟩ := hx
  refine ⟨inv_leave hzinv hcall (hz.trans hw) (hempty rfl), move_guarantee _ _ _ _ rfl, ?_⟩
  exact fun y hy _ => ⟨true, rfl, hy.trans (Function.update_self _ _ _)⟩

theorem program_safe (hi : s.stage i = .waiting) :
    Safe (exec calls) (Undisturbed calls) (protocol calls) i (fun _ _ => True)
      (calls i).program s := by
  intro t hst ht _ c a v hx
  simp only [exec] at hx
  split at hx
  · rename_i hadmits
    simp only [Option.some.injEq, Prod.mk.injEq] at hx
    obtain ⟨-, rfl⟩ := hx
    have hinv := inv_begin ht (hst.trans hi) hadmits
    have hbegun : ({ t with began := insert i t.began }.move i .begun).stage i = .begun :=
      Function.update_self _ _ _
    refine ⟨hinv, move_guarantee _ _ _ _ rfl, ?_⟩
    have hbody : Safe (exec calls) (Undisturbed calls) (protocol calls) i (Ended i)
        (calls i).body ({ t with began := insert i t.began }.move i .begun) := by
      cases hcall : calls i with
      | connect u x => exact connect_safe hcall hbegun hinv
      | disconnect u x => exact disconnect_safe hcall hbegun hinv
    refine hbody.bind ?_ (fun _ _ _ _ => trivial) hinv
    rintro result u hu ⟨_, h, hstage⟩
    obtain rfl := Except.ok.inj h
    intro w hw hwinv _ c' a' w' hx'
    simp only [exec, Option.some.injEq, Prod.mk.injEq] at hx'
    obtain ⟨-, rfl⟩ := hx'
    exact ⟨inv_finish hwinv (hw.trans hstage), move_guarantee _ _ _ _ rfl,
      fun _ _ _ => trivial⟩
  · cases hx

end Safety

/-- No call has begun, and no user has a socket. -/
def idle (ι : Type) : Presence ι := ⟨fun _ => ∅, ∅, fun _ => .waiting⟩

def start (calls : ι → Call) : Pool ι Ans JsError Unit (Presence ι) :=
  ⟨idle ι, fun i => (calls i).program⟩

omit [DecidableEq ι] in
theorem idle_inv (calls : ι → Call) : Inv calls (idle ι) where
  began := by simp [idle]
  connects := by simp [idle]
  disconnects := by simp [idle]
  after := by simp [idle]
  members := by simp [idle, Presence.sockets, Connected, Stage.Effective]
  balance := by simp [idle, Presence.sockets]
  entering := by simp [idle, Presence.sockets]
  leaving := by simp [idle, Presence.online]

/-- How many connects of the user have returned `true`. -/
def trueConnects (calls : ι → Call) (userId : JsString) (s : Presence ι) : ℕ :=
  (s.began.filter fun i => s.stage i = .returned true ∧ (calls i).connects userId = true).card

/-- How many disconnects of the user have returned `true`. -/
def trueDisconnects (calls : ι → Call) (userId : JsString) (s : Presence ι) : ℕ :=
  (s.began.filter fun i => s.stage i = .returned true ∧ (calls i).disconnects userId = true).card

/-- The store knows who is online, and has announced it. -/
structure Exact (calls : ι → Call) (userId : JsString) (s : Presence ι) : Prop where
  sockets : ∀ x, x ∈ s.sockets userId ↔ Connected calls s.stage userId x
  online : userId ∈ s.online ↔ s.sockets userId ≠ ∅
  balance : (trueConnects calls userId s : ℤ) - trueDisconnects calls userId s =
    if s.sockets userId = ∅ then 0 else 1

omit [DecidableEq ι] in
/-- When no call is in progress, every credit is a `true` that was returned. -/
theorem sum_credit_of_quiet {calls : ι → Call} {s : Presence ι} (hquiet : ∀ i, (s.stage i).Quiet)
    (userId : JsString) : ∑ i ∈ s.began, credit calls userId s.stage i =
      (trueConnects calls userId s : ℤ) - trueDisconnects calls userId s := by
  rw [trueConnects, trueDisconnects, ← Finset.sum_boole, ← Finset.sum_boole,
    ← Finset.sum_sub_distrib]
  refine Finset.sum_congr rfl fun i _ => ?_
  have hi := hquiet i
  cases hstage : s.stage i with
  | waiting => cases hcall : calls i <;> simp [credit, hcall, hstage, Stage.credit]
  | returned result =>
    cases hcall : calls i with
    | connect user x =>
      cases result <;> simp [credit, hcall, hstage, Stage.credit, Call.connects, Call.disconnects]
    | disconnect user x =>
      by_cases hu : user = userId <;> cases result <;>
        simp [credit, hcall, hstage, hu, Stage.credit, Call.connects, Call.disconnects]
  | begun => simp [hstage, Stage.Quiet] at hi
  | counted verdict => simp [hstage, Stage.Quiet] at hi
  | updated => simp [hstage, Stage.Quiet] at hi

omit [DecidableEq ι] in
theorem exact_of_inv {calls : ι → Call} {s : Presence ι} (hs : Inv calls s)
    (hquiet : ∀ i, (s.stage i).Quiet) (userId : JsString) : Exact calls userId s := by
  have hcounted : ∀ k, s.stage k ≠ .counted true := by
    intro k hk
    have hq := hquiet k
    simp [hk, Stage.Quiet] at hq
  refine ⟨hs.members userId, ⟨fun honline hempty => ?_, fun hne => ?_⟩, ?_⟩
  · rcases hs.leaving userId hempty with h | ⟨k, x, -, hk⟩
    · exact h honline
    · exact hcounted k hk
  · rcases hs.entering userId hne with h | ⟨k, x, -, hk⟩
    · exact h
    · exact absurd hk (hcounted k)
  · rw [← sum_credit_of_quiet hquiet]
    exact hs.balance userId

/-- In every run in which no call disturbs the verdict of another, presence is exact whenever
no call is in progress. -/
theorem presence_exact (calls : ι → Call) {q : Pool ι Ans JsError Unit (Presence ι)}
    (h : Steps (exec calls) (Undisturbed calls) (start calls) q)
    (hquiet : ∀ i, (q.shared.stage i).Quiet) (userId : JsString) :
    Exact calls userId q.shared := by
  obtain ⟨hinv, -⟩ := h.safe (P := protocol calls) (idle_inv calls) fun i => program_safe rfl
  exact exact_of_inv hinv hquiet userId

/-- `alice` opens two tabs; the first is closed later. -/
inductive Action where
  | openFirst
  | openSecond
  | closeFirst
  deriving DecidableEq

instance : Fintype Action where
  elems := {.openFirst, .openSecond, .closeFirst}
  complete action := by cases action <;> decide

def tabs : Action → Call
  | .openFirst => .connect (js "alice") (js "s1")
  | .openSecond => .connect (js "alice") (js "s2")
  | .closeFirst => .disconnect (js "alice") (js "s1")

def turns (schedule : List Action) : List (Action × Unit) := schedule.map fun i => (i, ())

/-- The second tab is opened before the first connect has returned, and the first is closed
before the second connect has returned; but each call counts the sockets that it left. -/
def staggered : Pool Action Ans JsError Unit (Presence Action) :=
  reach (exec tabs) (Undisturbed tabs)
    (turns [.openFirst, .openSecond, .openFirst, .openFirst, .openFirst, .openSecond, .openFirst,
      .openSecond, .openFirst, .closeFirst, .openSecond, .closeFirst, .openSecond, .closeFirst,
      .closeFirst])
    (start tabs)

theorem staggered_run : Steps (exec tabs) (Undisturbed tabs) (start tabs) staggered :=
  steps_reach _ _

theorem staggered_exact :
    (∀ i, staggered.shared.stage i ≠ .waiting) ∧
      staggered.shared.sockets (js "alice") = {js "s2"} ∧
      Exact tabs (js "alice") staggered.shared :=
  ⟨by decide, by decide, presence_exact tabs staggered_run (by decide) (js "alice")⟩

/-- The tabs are opened at the same time: both sockets are added before either is counted. -/
def atOnce : Pool Action Ans JsError Unit (Presence Action) :=
  reach (exec tabs) Anything
    (turns (List.replicate 5 [.openFirst, .openSecond]).flatten) (start tabs)

/-- Both connects return `false`, and the user stays offline with two sockets. -/
theorem unannounced_tabs :
    Steps (exec tabs) Anything (start tabs) atOnce ∧ (∀ i, (atOnce.shared.stage i).Quiet) ∧
      atOnce.shared.sockets (js "alice") = {js "s1", js "s2"} ∧
      js "alice" ∉ atOnce.shared.online ∧ trueConnects tabs (js "alice") atOnce.shared = 0 ∧
      ¬ Exact tabs (js "alice") atOnce.shared :=
  ⟨steps_reach _ _, by decide, by decide, by decide, by decide,
    fun h => absurd (h.online.mpr (by decide)) (by decide)⟩

end ChatMicroservices.PresenceExactness

import ChatMicroservices.EffectPrograms
import Mathlib.Logic.Function.Basic
import Mathlib.Order.Defs.Unbundled

/-!
# Interleavings of effect programs

Any number of programs share one state. A step picks a program and performs its next
effect atomically, so an effect is the unit of interleaving. The semantics may block an
effect, and an outside choice fixes whatever it leaves open. Two proof rules follow:
a frame rule for programs that only issue harmless effects, and a rely-guarantee rule
whose protocols carry the compatibility of the programs as a field.
-/

namespace ChatMicroservices.ConcurrentPrograms
open EffectPrograms

/-- What an effect of program `i` does under the choice `c`; `none` means it must wait. -/
abbrev Semantics (ι χ σ : Type) {Op : Type} (Ans : Op → Type) : Type :=
  ι → χ → (op : Op) → σ → Option (Ans op × σ)

/-- Programs indexed by `ι` over one shared state. -/
structure Pool (ι : Type) {Op : Type} (Ans : Op → Type) (ε α σ : Type) where
  shared : σ
  threads : ι → Program Ans ε α

variable {ι χ σ Op : Type} {Ans : Op → Type} {ε α β : Type}

namespace Pool

variable [DecidableEq ι]

/-- One step of program `i`. A finished program has no step. -/
def step (exec : Semantics ι χ σ Ans) (q : Pool ι Ans ε α σ) (i : ι) (c : χ) :
    Option (Pool ι Ans ε α σ) :=
  match q.threads i with
  | .done _ => none
  | .perform op next =>
    (exec i c op q.shared).map fun r => ⟨r.2, Function.update q.threads i (next r.1)⟩

/-- The outcome of program `i`, once it has finished. -/
def result (q : Pool ι Ans ε α σ) (i : ι) : Option (Except ε α) :=
  match q.threads i with
  | .done r => some r
  | .perform _ _ => none

/-- The next effect of program `i` meets the condition `ok`. -/
def Permits (ok : ι → Op → σ → Prop) (q : Pool ι Ans ε α σ) (i : ι) : Prop :=
  match q.threads i with
  | .done _ => True
  | .perform op _ => ok i op q.shared

instance (ok : ι → Op → σ → Prop) [∀ i op s, Decidable (ok i op s)] (q : Pool ι Ans ε α σ)
    (i : ι) : Decidable (q.Permits ok i) := by
  unfold Permits
  split <;> infer_instance

omit [DecidableEq ι] in
theorem result_eq_some {q : Pool ι Ans ε α σ} {i : ι} {r : Except ε α} :
    q.result i = some r ↔ q.threads i = .done r := by
  unfold result
  split <;> simp_all

/-- Everything a step can do: an effect that the semantics lets through. -/
theorem step_eq_some {exec : Semantics ι χ σ Ans} {q r : Pool ι Ans ε α σ} {i : ι} {c : χ}
    (h : q.step exec i c = some r) :
    ∃ op next a s, q.threads i = .perform op next ∧ exec i c op q.shared = some (a, s) ∧
      r = ⟨s, Function.update q.threads i (next a)⟩ := by
  unfold step at h
  split at h
  · cases h
  · rename_i op next ht
    obtain ⟨⟨a, s⟩, hx, rfl⟩ := Option.map_eq_some_iff.mp h
    exact ⟨op, next, a, s, ht, hx, rfl⟩

end Pool

/-- Runs all of whose steps meet the condition `ok`. -/
inductive Steps [DecidableEq ι] (exec : Semantics ι χ σ Ans) (ok : ι → Op → σ → Prop) :
    Pool ι Ans ε α σ → Pool ι Ans ε α σ → Prop where
  | refl (q) : Steps exec ok q q
  | tail {p q r} (run : Steps exec ok p q) (i : ι) (c : χ) (permitted : q.Permits ok i)
      (step : q.step exec i c = some r) : Steps exec ok p r

/-- The condition that every step meets. -/
def Anything : ι → Op → σ → Prop := fun _ _ _ => True

instance (i : ι) (op : Op) (s : σ) : Decidable (Anything i op s) := inferInstanceAs (Decidable True)

section Runs

variable [DecidableEq ι] {exec : Semantics ι χ σ Ans} {ok : ι → Op → σ → Prop}

theorem Steps.trans {p q r : Pool ι Ans ε α σ} (h : Steps exec ok p q)
    (h' : Steps exec ok q r) : Steps exec ok p r := by
  induction h' with
  | refl => exact h
  | tail _ i c hp hs ih => exact .tail ih i c hp hs

/-- The semantics in which only those effects go through that meet a condition; unlike the
condition of a run, this one sees the choice of the outside. -/
def restrict (exec : Semantics ι χ σ Ans) (meets : ι → χ → Op → σ → Prop)
    [∀ i c op s, Decidable (meets i c op s)] : Semantics ι χ σ Ans := fun i c op s =>
  if meets i c op s then exec i c op s else none

omit [DecidableEq ι] in
theorem restrict_eq_some {meets : ι → χ → Op → σ → Prop}
    [∀ i c op s, Decidable (meets i c op s)] {i : ι} {c : χ} {op : Op} {s : σ}
    {r : Ans op × σ} : restrict exec meets i c op s = some r ↔
      meets i c op s ∧ exec i c op s = some r := by
  unfold restrict
  split <;> simp_all

/-- Follow a schedule; it fails at a step that blocks or that breaks the condition. -/
def follow (exec : Semantics ι χ σ Ans) (ok : ι → Op → σ → Prop)
    [∀ i op s, Decidable (ok i op s)] :
    List (ι × χ) → Pool ι Ans ε α σ → Option (Pool ι Ans ε α σ)
  | [], q => some q
  | (i, c) :: rest, q =>
    if q.Permits ok i then (q.step exec i c).bind (follow exec ok rest) else none

/-- A schedule that goes through is a run. -/
theorem steps_of_follow [∀ i op s, Decidable (ok i op s)] {schedule : List (ι × χ)}
    {p q : Pool ι Ans ε α σ} (h : follow exec ok schedule p = some q) : Steps exec ok p q := by
  induction schedule generalizing p with
  | nil => exact Option.some.inj h ▸ .refl p
  | cons move rest ih =>
    obtain ⟨i, c⟩ := move
    simp only [follow] at h
    split at h
    · rename_i hp
      obtain ⟨r, hs, hr⟩ := Option.bind_eq_some_iff.mp h
      exact (Steps.tail (.refl p) i c hp hs).trans (ih hr)
    · cases h

/-- Where a schedule leads; a schedule that does not go through leads nowhere. -/
def reach (exec : Semantics ι χ σ Ans) (ok : ι → Op → σ → Prop)
    [∀ i op s, Decidable (ok i op s)] (schedule : List (ι × χ)) (p : Pool ι Ans ε α σ) :
    Pool ι Ans ε α σ :=
  (follow exec ok schedule p).getD p

theorem steps_reach [∀ i op s, Decidable (ok i op s)] (schedule : List (ι × χ))
    (p : Pool ι Ans ε α σ) : Steps exec ok p (reach exec ok schedule p) := by
  unfold reach
  cases h : follow exec ok schedule p with
  | none => exact .refl p
  | some q => exact steps_of_follow h

end Runs

/-- If every permitted effect of `P` moves the state along a preorder, so does every
permitted run of programs that only issue effects of `P`. -/
theorem Steps.moves_along [DecidableEq ι] {exec : Semantics ι χ σ Ans}
    {ok : ι → Op → σ → Prop} {P : Op → Prop} {R : σ → σ → Prop} (hrefl : ∀ s, R s s)
    (htrans : ∀ {s t u}, R s t → R t u → R s u)
    (heffect : ∀ i c op s a s', P op → ok i op s → exec i c op s = some (a, s') → R s s')
    {p q : Pool ι Ans ε α σ} (run : Steps exec ok p q) (hp : ∀ i, (p.threads i).Issues P) :
    R p.shared q.shared ∧ ∀ i, (q.threads i).Issues P := by
  induction run with
  | refl => exact ⟨hrefl _, hp⟩
  | @tail q _ _ i c permitted step ih =>
    obtain ⟨hR, hq⟩ := ih
    obtain ⟨op, next, a, s, ht, hx, rfl⟩ := Pool.step_eq_some step
    have hi := hq i
    rw [ht] at hi
    have hok : ok i op q.shared := by simpa [Pool.Permits, ht] using permitted
    refine ⟨htrans hR (heffect i c op _ a s hi.1 hok hx), fun j => ?_⟩
    by_cases hj : j = i
    · subst hj
      simpa using hi.2 a
    · simpa [Function.update_of_ne hj] using hq j

/-- An invariant of the shared state, what each program may assume of the others and what
it promises them. The promises of one program imply the assumptions of any other. -/
structure Protocol (ι σ : Type) where
  inv : σ → Prop
  rely : ι → σ → σ → Prop
  guar : ι → σ → σ → Prop
  rely_refl : ∀ i s, rely i s s
  rely_trans : ∀ i {s t u}, rely i s t → rely i t u → rely i s u
  compatible : ∀ {i j}, i ≠ j → ∀ {s t}, inv s → guar j s t → rely i s t

/-- Program `i` keeps the protocol from state `s` on and finishes in a state of `post`,
however the others interfere before each of its effects. -/
def Safe (exec : Semantics ι χ σ Ans) (ok : ι → Op → σ → Prop) (P : Protocol ι σ) (i : ι)
    (post : Except ε α → σ → Prop) : Program Ans ε α → σ → Prop
  | .done r, s => ∀ t, P.rely i s t → P.inv t → post r t
  | .perform op next, s => ∀ t, P.rely i s t → P.inv t → ok i op t →
      ∀ c a u, exec i c op t = some (a, u) →
        P.inv u ∧ P.guar i t u ∧ Safe exec ok P i post (next a) u

section Safe

variable {exec : Semantics ι χ σ Ans} {ok : ι → Op → σ → Prop} {P : Protocol ι σ} {i : ι}

theorem Safe.rely {post : Except ε α → σ → Prop} {p : Program Ans ε α} {s t : σ}
    (h : Safe exec ok P i post p s) (hst : P.rely i s t) : Safe exec ok P i post p t := by
  cases p with
  | done r => exact fun u htu => h u (P.rely_trans i hst htu)
  | perform op next => exact fun u htu => h u (P.rely_trans i hst htu)

/-- What goes on after a program starts where that has ended. -/
theorem Safe.continued {mid : Except ε α → σ → Prop} {post : Except ε β → σ → Prop}
    {p : Program Ans ε α} {g : Program Ans ε α → Program Ans ε β} {s : σ}
    (h : Safe exec ok P i mid p s) (hg : Program.Continues g)
    (hdone : ∀ r t, P.inv t → Safe exec ok P i mid (.done r) t →
      Safe exec ok P i post (g (.done r)) t) (hs : P.inv s) :
    Safe exec ok P i post (g p) s := by
  induction p generalizing s with
  | done r => exact hdone r s hs h
  | perform op next ih =>
    rw [hg]
    intro t hst ht hop c a u hx
    obtain ⟨hu, hguar, hnext⟩ := h t hst ht hop c a u hx
    exact ⟨hu, hguar, ih a hnext hu⟩

/-- Continue after every outcome of `p`; the continuation may rely on the postcondition. -/
theorem Safe.bind {mid : Except ε α → σ → Prop} {post : Except ε β → σ → Prop}
    {p : Program Ans ε α} {f : α → Program Ans ε β} {s : σ}
    (h : Safe exec ok P i mid p s)
    (hok : ∀ a t, P.inv t → mid (.ok a) t → Safe exec ok P i post (f a) t)
    (herror : ∀ e t, P.inv t → mid (.error e) t → post (.error e) t)
    (hs : P.inv s) : Safe exec ok P i post (p.bind f) s := by
  refine h.continued (Program.continues_bind f) (fun r t ht hmid => ?_) hs
  cases r with
  | ok a => exact hok a t ht (hmid t (P.rely_refl i t) ht)
  | error e => exact fun u htu hu => herror e u hu (hmid u htu hu)

theorem Safe.tryCatch {mid post : Except ε α → σ → Prop} {p : Program Ans ε α}
    {handler : ε → Program Ans ε α} {s : σ} (h : Safe exec ok P i mid p s)
    (hok : ∀ a t, P.inv t → mid (.ok a) t → post (.ok a) t)
    (herror : ∀ e t, P.inv t → mid (.error e) t → Safe exec ok P i post (handler e) t)
    (hs : P.inv s) : Safe exec ok P i post (p.tryCatch handler) s := by
  refine h.continued (Program.continues_tryCatch handler) (fun r t ht hmid => ?_) hs
  cases r with
  | ok a => exact fun u htu hu => hok a u hu (hmid u htu hu)
  | error e => exact herror e t ht (hmid t (P.rely_refl i t) ht)

theorem Safe.tryFinally {mid post : Except ε α → σ → Prop} {p : Program Ans ε α}
    {cleanup : Program Ans ε Unit} {s : σ} (h : Safe exec ok P i mid p s)
    (hcleanup : ∀ r t, P.inv t → mid r t →
      Safe exec ok P i post (cleanup.bind fun _ => .done r) t)
    (hs : P.inv s) : Safe exec ok P i post (p.tryFinally cleanup) s := by
  refine h.continued (Program.continues_tryFinally cleanup) (fun r t ht hmid => ?_) hs
  exact hcleanup r t ht (hmid t (P.rely_refl i t) ht)

/-- Parallel composition: programs that are safe one by one stay safe together. -/
theorem Steps.safe [DecidableEq ι] {post : ι → Except ε α → σ → Prop}
    {p q : Pool ι Ans ε α σ} (run : Steps exec ok p q) (hinv : P.inv p.shared)
    (hp : ∀ i, Safe exec ok P i (post i) (p.threads i) p.shared) :
    P.inv q.shared ∧ ∀ i, Safe exec ok P i (post i) (q.threads i) q.shared := by
  induction run with
  | refl => exact ⟨hinv, hp⟩
  | @tail q _ _ j c permitted step ih =>
    obtain ⟨hq, hsafe⟩ := ih
    obtain ⟨op, next, a, s, ht, hx, rfl⟩ := Pool.step_eq_some step
    have hj := hsafe j
    rw [ht] at hj
    have hop : ok j op q.shared := by simpa [Pool.Permits, ht] using permitted
    obtain ⟨hs, hg, hn⟩ := hj q.shared (P.rely_refl j _) hq hop c a s hx
    refine ⟨hs, fun k => ?_⟩
    by_cases hk : k = j
    · subst hk
      simpa using hn
    · simpa [Function.update_of_ne hk] using (hsafe k).rely (P.compatible hk hq hg)

/-- What every promise implies of a single effect holds, if it is a preorder, between the
ends of a run. -/
theorem Steps.along [DecidableEq ι] {post : ι → Except ε α → σ → Prop} {R : σ → σ → Prop}
    (hrefl : ∀ s, R s s) (htrans : ∀ {s t u}, R s t → R t u → R s u)
    (hguar : ∀ i {s t}, P.guar i s t → R s t) {p q : Pool ι Ans ε α σ}
    (run : Steps exec ok p q) (hinv : P.inv p.shared)
    (hp : ∀ i, Safe exec ok P i (post i) (p.threads i) p.shared) : R p.shared q.shared := by
  induction run with
  | refl => exact hrefl _
  | @tail q _ run j c permitted step ih =>
    obtain ⟨hq, hsafe⟩ := run.safe hinv hp
    obtain ⟨op, next, a, s, ht, hx, rfl⟩ := Pool.step_eq_some step
    have hj := hsafe j
    rw [ht] at hj
    have hop : ok j op q.shared := by simpa [Pool.Permits, ht] using permitted
    exact htrans ih (hguar j (hj q.shared (P.rely_refl j _) hq hop c a s hx).2.1)

/-- A finished program meets its postcondition in every later state. -/
theorem Steps.post [DecidableEq ι] {post : ι → Except ε α → σ → Prop}
    {p q : Pool ι Ans ε α σ} (run : Steps exec ok p q) (hinv : P.inv p.shared)
    (hp : ∀ i, Safe exec ok P i (post i) (p.threads i) p.shared) {i : ι} {r : Except ε α}
    (hr : q.result i = some r) : post i r q.shared := by
  obtain ⟨hq, hsafe⟩ := run.safe hinv hp
  have hi := hsafe i
  rw [Pool.result_eq_some.mp hr] at hi
  exact hi q.shared (P.rely_refl i _) hq

end Safe

end ChatMicroservices.ConcurrentPrograms

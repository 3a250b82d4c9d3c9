import Mathlib.Data.List.Basic

/-!
# Programs of awaited effects

A program either has finished, with a value or with an exception, or performs one
external effect and continues with its answer. The answers come from an interpreter
that owns the state of the outside world, so one program can be run against several
worlds. A trace lists the effects of a run, each with the state it met.
-/

namespace ChatMicroservices.EffectPrograms

/-- Effect trees over operations `Op`, where `Ans op` is the type of the answer to `op`. -/
inductive Program {Op : Type} (Ans : Op → Type) (ε α : Type) : Type where
  | done (r : Except ε α)
  | perform (op : Op) (next : Ans op → Program Ans ε α)

namespace Program

variable {Op : Type} {Ans : Op → Type} {ε α β γ : Type}

/-- Sequencing: an exception skips the continuation. -/
def bind : Program Ans ε α → (α → Program Ans ε β) → Program Ans ε β
  | done (.ok a), f => f a
  | done (.error e), _ => done (.error e)
  | perform op next, f => perform op fun a => (next a).bind f

/-- Handle an exception; a program that returns is left alone. -/
def tryCatch : Program Ans ε α → (ε → Program Ans ε α) → Program Ans ε α
  | done (.ok a), _ => done (.ok a)
  | done (.error e), h => h e
  | perform op next, h => perform op fun a => (next a).tryCatch h

/-- Run a cleanup after every outcome; only an exception of the cleanup replaces it. -/
def tryFinally : Program Ans ε α → Program Ans ε Unit → Program Ans ε α
  | done r, cleanup => cleanup.bind fun _ => done r
  | perform op next, cleanup => perform op fun a => (next a).tryFinally cleanup

instance : Monad (Program Ans ε) where
  pure a := done (.ok a)
  bind := bind

instance : MonadExceptOf ε (Program Ans ε) where
  throw e := done (.error e)
  tryCatch := tryCatch

/-- Perform one effect and return its answer. -/
def call (op : Op) : Program Ans ε (Ans op) := perform op fun a => done (.ok a)

/-- Await an answer that is itself a value or an exception. -/
def attempt (p : Program Ans ε (Except ε α)) : Program Ans ε α := p.bind done

@[simp] theorem pure_eq (a : α) : (pure a : Program Ans ε α) = done (.ok a) := rfl

@[simp] theorem throw_eq (e : ε) : (throw e : Program Ans ε α) = done (.error e) := rfl

@[simp] theorem bind_eq (p : Program Ans ε α) (f : α → Program Ans ε β) :
    (p >>= f) = p.bind f := rfl

@[simp] theorem tryCatch_eq (p : Program Ans ε α) (h : ε → Program Ans ε α) :
    tryCatchThe ε p h = p.tryCatch h := rfl

@[simp] theorem bind_ok (a : α) (f : α → Program Ans ε β) :
    (done (.ok a) : Program Ans ε α).bind f = f a := rfl

@[simp] theorem bind_error (e : ε) (f : α → Program Ans ε β) :
    (done (.error e) : Program Ans ε α).bind f = done (.error e) := rfl

@[simp] theorem bind_perform (op : Op) (next : Ans op → Program Ans ε α)
    (f : α → Program Ans ε β) :
    (perform op next).bind f = perform op fun a => (next a).bind f := rfl

@[simp] theorem bind_call (op : Op) (f : Ans op → Program Ans ε β) :
    (call op).bind f = perform op f := rfl

@[simp] theorem tryCatch_ok (a : α) (h : ε → Program Ans ε α) :
    (done (.ok a) : Program Ans ε α).tryCatch h = done (.ok a) := rfl

@[simp] theorem tryCatch_error (e : ε) (h : ε → Program Ans ε α) :
    (done (.error e) : Program Ans ε α).tryCatch h = h e := rfl

@[simp] theorem tryCatch_perform (op : Op) (next : Ans op → Program Ans ε α)
    (h : ε → Program Ans ε α) :
    (perform op next).tryCatch h = perform op fun a => (next a).tryCatch h := rfl

theorem bind_assoc (p : Program Ans ε α) (f : α → Program Ans ε β)
    (g : β → Program Ans ε γ) : (p.bind f).bind g = p.bind fun a => (f a).bind g := by
  induction p with
  | done r => cases r <;> rfl
  | perform op next ih => simp [ih]

theorem bind_done (p : Program Ans ε α) : (p.bind fun a => done (.ok a)) = p := by
  induction p with
  | done r => cases r <;> rfl
  | perform op next ih => simp [ih]

/-- What goes on after the outcome of a program leaves its effects in front. -/
def Continues (g : Program Ans ε α → Program Ans ε β) : Prop :=
  ∀ op next, g (perform op next) = perform op fun a => g (next a)

theorem continues_bind (f : α → Program Ans ε β) :
    Continues fun p : Program Ans ε α => p.bind f := fun _ _ => rfl

theorem continues_tryCatch (h : ε → Program Ans ε α) :
    Continues fun p : Program Ans ε α => p.tryCatch h := fun _ _ => rfl

theorem continues_tryFinally (cleanup : Program Ans ε Unit) :
    Continues fun p : Program Ans ε α => p.tryFinally cleanup := fun _ _ => rfl

/-- The program performs effects of `P` only. -/
def Issues (P : Op → Prop) : Program Ans ε α → Prop
  | done _ => True
  | perform op next => P op ∧ ∀ a, (next a).Issues P

/-- Every outcome of the program is in `Q`. -/
def Ends (Q : Except ε α → Prop) : Program Ans ε α → Prop
  | done r => Q r
  | perform _ next => ∀ a, (next a).Ends Q

section Rules

variable {P : Op → Prop} {p : Program Ans ε α}

@[simp] theorem issues_done (r : Except ε α) : (done r : Program Ans ε α).Issues P := trivial

@[simp] theorem issues_perform (op : Op) (next : Ans op → Program Ans ε α) :
    (perform op next).Issues P ↔ P op ∧ ∀ a, (next a).Issues P := Iff.rfl

@[simp] theorem issues_call (op : Op) : (call op : Program Ans ε (Ans op)).Issues P ↔ P op := by
  simp [call]

theorem Issues.continued {g : Program Ans ε α → Program Ans ε β} (hp : p.Issues P)
    (hg : Continues g) (hdone : ∀ r, (g (done r)).Issues P) : (g p).Issues P := by
  induction p with
  | done r => exact hdone r
  | perform op next ih =>
    rw [hg]
    exact ⟨hp.1, fun a => ih a (hp.2 a)⟩

theorem Issues.bind {f : α → Program Ans ε β} (hp : p.Issues P) (hf : ∀ a, (f a).Issues P) :
    (p.bind f).Issues P := by
  refine hp.continued (continues_bind f) fun r => ?_
  cases r with
  | ok a => exact hf a
  | error e => trivial

theorem Issues.attempt {p : Program Ans ε (Except ε α)} (hp : p.Issues P) :
    p.attempt.Issues P := hp.bind fun _ => trivial

theorem Issues.tryCatch {h : ε → Program Ans ε α} (hp : p.Issues P)
    (hh : ∀ e, (h e).Issues P) : (p.tryCatch h).Issues P := by
  refine hp.continued (continues_tryCatch h) fun r => ?_
  cases r with
  | ok a => trivial
  | error e => exact hh e

theorem Issues.tryFinally {cleanup : Program Ans ε Unit} (hp : p.Issues P)
    (hc : cleanup.Issues P) : (p.tryFinally cleanup).Issues P :=
  hp.continued (continues_tryFinally cleanup) fun _ => hc.bind fun _ => trivial

theorem Issues.mono {P' : Op → Prop} (hP : ∀ op, P op → P' op) (hp : p.Issues P) :
    p.Issues P' := by
  induction p with
  | done r => trivial
  | perform op next ih => exact ⟨hP op hp.1, fun a => ih a (hp.2 a)⟩

variable {Q : Except ε α → Prop}

@[simp] theorem ends_done (r : Except ε α) : (done r : Program Ans ε α).Ends Q ↔ Q r := Iff.rfl

@[simp] theorem ends_perform (op : Op) (next : Ans op → Program Ans ε α) :
    (perform op next).Ends Q ↔ ∀ a, (next a).Ends Q := Iff.rfl

theorem ends_anything (p : Program Ans ε α) : p.Ends fun _ => True := by
  induction p with
  | done r => trivial
  | perform op next ih => exact ih

theorem Ends.continued {Q' : Except ε β → Prop} {g : Program Ans ε α → Program Ans ε β}
    (hp : p.Ends Q) (hg : Continues g) (hdone : ∀ r, Q r → (g (done r)).Ends Q') :
    (g p).Ends Q' := by
  induction p with
  | done r => exact hdone r hp
  | perform op next ih =>
    rw [hg]
    exact fun a => ih a (hp a)

theorem Ends.bind {Q' : Except ε β → Prop} {f : α → Program Ans ε β} (hp : p.Ends Q)
    (hok : ∀ a, Q (.ok a) → (f a).Ends Q') (herror : ∀ e, Q (.error e) → Q' (.error e)) :
    (p.bind f).Ends Q' := by
  refine hp.continued (continues_bind f) fun r hr => ?_
  cases r with
  | ok a => exact hok a hr
  | error e => exact herror e hr

theorem Ends.tryCatch {Q' : Except ε α → Prop} {h : ε → Program Ans ε α} (hp : p.Ends Q)
    (hok : ∀ a, Q (.ok a) → Q' (.ok a)) (herror : ∀ e, Q (.error e) → (h e).Ends Q') :
    (p.tryCatch h).Ends Q' := by
  refine hp.continued (continues_tryCatch h) fun r hr => ?_
  cases r with
  | ok a => exact hok a hr
  | error e => exact herror e hr

end Rules

section Run

variable {σ : Type} (exec : (op : Op) → σ → Ans op × σ)

/-- The outcome of a run and the state it leaves. An exception keeps the state. -/
def run : Program Ans ε α → σ → Except ε α × σ
  | done r, s => (r, s)
  | perform op next, s => (next (exec op s).1).run (exec op s).2

/-- The effects of a run in order, each with the state it was performed in. -/
def trace : Program Ans ε α → σ → List (Op × σ)
  | done _, _ => []
  | perform op next, s => (op, s) :: (next (exec op s).1).trace (exec op s).2

@[simp] theorem run_done (r : Except ε α) (s : σ) :
    (done r : Program Ans ε α).run exec s = (r, s) := rfl

@[simp] theorem run_perform (op : Op) (next : Ans op → Program Ans ε α) (s : σ) :
    (perform op next).run exec s = (next (exec op s).1).run exec (exec op s).2 := rfl

@[simp] theorem run_call (op : Op) (s : σ) :
    (call op : Program Ans ε (Ans op)).run exec s = (.ok (exec op s).1, (exec op s).2) := rfl

@[simp] theorem trace_done (r : Except ε α) (s : σ) :
    (done r : Program Ans ε α).trace exec s = [] := rfl

@[simp] theorem trace_perform (op : Op) (next : Ans op → Program Ans ε α) (s : σ) :
    (perform op next).trace exec s =
      (op, s) :: (next (exec op s).1).trace exec (exec op s).2 := rfl

@[simp] theorem trace_call (op : Op) (s : σ) :
    (call op : Program Ans ε (Ans op)).trace exec s = [(op, s)] := rfl

/-- What the continuation of a run does, once the run has an outcome. -/
def resume (f : α → Program Ans ε β) (out : Except ε α × σ) : Except ε β × σ :=
  match out.1 with
  | .ok a => (f a).run exec out.2
  | .error e => (.error e, out.2)

/-- The effects of the continuation. -/
def resumeTrace (f : α → Program Ans ε β) (out : Except ε α × σ) : List (Op × σ) :=
  match out.1 with
  | .ok a => (f a).trace exec out.2
  | .error _ => []

@[simp] theorem resume_ok (f : α → Program Ans ε β) (a : α) (s : σ) :
    resume exec f (.ok a, s) = (f a).run exec s := rfl

@[simp] theorem resume_error (f : α → Program Ans ε β) (e : ε) (s : σ) :
    resume exec f (.error e, s) = (.error e, s) := rfl

@[simp] theorem resumeTrace_ok (f : α → Program Ans ε β) (a : α) (s : σ) :
    resumeTrace exec f (.ok a, s) = (f a).trace exec s := rfl

@[simp] theorem resumeTrace_error (f : α → Program Ans ε β) (e : ε) (s : σ) :
    resumeTrace exec f (.error e, s) = [] := rfl

theorem run_bind (p : Program Ans ε α) (f : α → Program Ans ε β) (s : σ) :
    (p.bind f).run exec s = resume exec f (p.run exec s) := by
  induction p generalizing s with
  | done r => cases r <;> rfl
  | perform op next ih => simpa using ih _ _

theorem trace_bind (p : Program Ans ε α) (f : α → Program Ans ε β) (s : σ) :
    (p.bind f).trace exec s = p.trace exec s ++ resumeTrace exec f (p.run exec s) := by
  induction p generalizing s with
  | done r => cases r <;> rfl
  | perform op next ih => simpa using ih _ _

theorem run_tryCatch (p : Program Ans ε α) (h : ε → Program Ans ε α) (s : σ) :
    (p.tryCatch h).run exec s =
      match p.run exec s with
      | (.ok a, s') => (.ok a, s')
      | (.error e, s') => (h e).run exec s' := by
  induction p generalizing s with
  | done r => cases r <;> rfl
  | perform op next ih => simpa using ih _ _

theorem trace_tryCatch (p : Program Ans ε α) (h : ε → Program Ans ε α) (s : σ) :
    (p.tryCatch h).trace exec s = p.trace exec s ++
      match p.run exec s with
      | (.ok _, _) => []
      | (.error e, s') => (h e).trace exec s' := by
  induction p generalizing s with
  | done r => cases r <;> rfl
  | perform op next ih => simpa using ih _ _

theorem mem_trace_bind_left {p : Program Ans ε α} {f : α → Program Ans ε β} {s : σ} {e : Op × σ}
    (h : e ∈ p.trace exec s) : e ∈ (p.bind f).trace exec s := by
  rw [trace_bind]
  exact List.mem_append_left _ h

theorem mem_trace_tryCatch {p : Program Ans ε α} {handler : ε → Program Ans ε α} {s : σ}
    {e : Op × σ} (h : e ∈ p.trace exec s) : e ∈ (p.tryCatch handler).trace exec s := by
  rw [trace_tryCatch]
  exact List.mem_append_left _ h

theorem Issues.mem_trace {P : Op → Prop} {p : Program Ans ε α} (hp : p.Issues P) {s t : σ}
    {op : Op} (h : (op, t) ∈ p.trace exec s) : P op := by
  induction p generalizing s with
  | done r => cases h
  | perform op' next ih =>
    rw [trace_perform, List.mem_cons] at h
    rcases h with h | h
    · obtain ⟨rfl, -⟩ := Prod.mk.inj h
      exact hp.1
    · exact ih _ (hp.2 _) h

/-- If every effect of `P` moves the state along a preorder, so does the whole run. -/
theorem Issues.run_along {P : Op → Prop} {R : σ → σ → Prop} (hrefl : ∀ s, R s s)
    (htrans : ∀ {s t u}, R s t → R t u → R s u) (heffect : ∀ op s, P op → R s (exec op s).2)
    {p : Program Ans ε α} (hp : p.Issues P) (s : σ) : R s (p.run exec s).2 := by
  induction p generalizing s with
  | done r => exact hrefl s
  | perform op next ih => exact htrans (heffect op s hp.1) (ih _ (hp.2 _) _)

/-- The same holds of every state that an effect of the run meets. -/
theorem Issues.trace_along {P : Op → Prop} {R : σ → σ → Prop} (hrefl : ∀ s, R s s)
    (htrans : ∀ {s t u}, R s t → R t u → R s u) (heffect : ∀ op s, P op → R s (exec op s).2)
    {p : Program Ans ε α} (hp : p.Issues P) {s t : σ} {op : Op}
    (h : (op, t) ∈ p.trace exec s) : R s t := by
  induction p generalizing s with
  | done r => cases h
  | perform op' next ih =>
    rw [trace_perform, List.mem_cons] at h
    rcases h with h | h
    · obtain ⟨-, rfl⟩ := Prod.mk.inj h
      exact hrefl t
    · exact htrans (heffect op' s hp.1) (ih _ (hp.2 _) h)

/-- Two runs of one program whose effects get the same answers in related states perform the
same effects. -/
theorem Issues.two_runs {P : Op → Prop} {R : σ → σ → Prop}
    (heffect : ∀ op s t, P op → R s t →
      (exec op s).1 = (exec op t).1 ∧ R (exec op s).2 (exec op t).2)
    {p : Program Ans ε α} (hp : p.Issues P) {s t : σ} (hst : R s t) :
    (p.trace exec s).map Prod.fst = (p.trace exec t).map Prod.fst := by
  induction p generalizing s t with
  | done r => rfl
  | perform op next ih =>
    obtain ⟨ha, hR⟩ := heffect op s t hp.1 hst
    rw [trace_perform, trace_perform, List.map_cons, List.map_cons, ← ha]
    exact congrArg _ (ih _ (hp.2 _) hR)

theorem Ends.run {Q : Except ε α → Prop} {p : Program Ans ε α} (hp : p.Ends Q) (s : σ) :
    Q (p.run exec s).1 := by
  induction p generalizing s with
  | done r => exact hp
  | perform op next ih => exact ih _ (hp _) _

end Run

end Program

end ChatMicroservices.EffectPrograms

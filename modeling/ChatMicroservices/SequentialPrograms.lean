import ChatMicroservices.EffectPrograms

/-!
# Programs that run alone

One program after another uses a state that nobody else touches. What the outside decides
comes from a stream with one element for every effect, numbered by moments, so a run has one
result. `Leads` is the weakest precondition of a program, and two runs on two states under
the same stream are compared effect by effect. A session is a sequence of requests, each run
to its end before the next.
-/

namespace ChatMicroservices.SequentialPrograms
open EffectPrograms

variable {Op : Type} {Ans : Op → Type} {χ σ ε α β : Type}

/-- What an effect does under a condition; `none` means that it never returns. -/
abbrev Effects (χ σ : Type) {Op : Type} (Ans : Op → Type) : Type :=
  χ → (op : Op) → σ → Option (Ans op × σ)

variable (exec : Effects χ σ Ans) (e : ℕ → χ)

/-- Run a program from moment `n`; the result comes with the first moment that is not used. -/
def runFrom : Program Ans ε α → ℕ → σ → Option (Except ε α × ℕ × σ)
  | .done r, n, s => some (r, n, s)
  | .perform op next, n, s =>
    (exec (e n) op s).bind fun answer => runFrom (next answer.1) (n + 1) answer.2

/-- The program returns, and its outcome, the moment and the state are in `Q`. -/
def Leads (Q : Except ε α → ℕ → σ → Prop) : Program Ans ε α → ℕ → σ → Prop
  | .done r, n, s => Q r n s
  | .perform op next, n, s =>
    ∃ a t, exec (e n) op s = some (a, t) ∧ Leads Q (next a) (n + 1) t

section Rules

variable {exec e} {Q Q' : Except ε α → ℕ → σ → Prop} {p : Program Ans ε α} {n : ℕ} {s : σ}

theorem leads_iff : Leads exec e Q p n s ↔
    ∃ r m t, runFrom exec e p n s = some (r, m, t) ∧ Q r m t := by
  induction p generalizing n s with
  | done r => simp [Leads, runFrom]
  | perform op next ih =>
    simp only [Leads, runFrom, Option.bind_eq_some_iff, Prod.exists, ih]
    constructor
    · rintro ⟨a, t, hx, r, m, u, hrun, hQ⟩
      exact ⟨r, m, u, ⟨a, t, hx, hrun⟩, hQ⟩
    · rintro ⟨r, m, u, ⟨a, t, hx, hrun⟩, hQ⟩
      exact ⟨a, t, hx, r, m, u, hrun, hQ⟩

/-- One effect, for a state and an answer that are known. -/
theorem leads_perform {op : Op} {next : Ans op → Program Ans ε α} {a : Ans op} {t : σ}
    (h : exec (e n) op s = some (a, t)) :
    Leads exec e Q (.perform op next) n s ↔ Leads exec e Q (next a) (n + 1) t := by
  constructor
  · rintro ⟨a', t', hx, hnext⟩
    obtain ⟨rfl, rfl⟩ := Prod.mk.inj (Option.some.inj (h.symm.trans hx))
    exact hnext
  · intro hnext
    exact ⟨a, t, h, hnext⟩

/-- Moments only grow. -/
theorem Leads.later (h : Leads exec e Q p n s) :
    Leads exec e (fun r m t => n ≤ m ∧ Q r m t) p n s := by
  induction p generalizing n s with
  | done r => exact ⟨Nat.le_refl n, h⟩
  | perform op next ih =>
    obtain ⟨a, t, hx, hnext⟩ := h
    refine ⟨a, t, hx, ?_⟩
    have hlater := ih a hnext
    rw [leads_iff] at hlater ⊢
    obtain ⟨r, m, u, hrun, hm, hQ⟩ := hlater
    exact ⟨r, m, u, hrun, by omega, hQ⟩

theorem Leads.mono (h : Leads exec e Q p n s) (hQ : ∀ r m t, n ≤ m → Q r m t → Q' r m t) :
    Leads exec e Q' p n s := by
  have hlater := h.later
  rw [leads_iff] at hlater ⊢
  obtain ⟨r, m, t, hrun, hm, hq⟩ := hlater
  exact ⟨r, m, t, hrun, hQ r m t hm hq⟩

/-- What goes on after a program starts from one of its outcomes. -/
theorem Leads.continued {R : Except ε β → ℕ → σ → Prop} {g : Program Ans ε α → Program Ans ε β}
    (h : Leads exec e Q p n s) (hg : Program.Continues g)
    (hdone : ∀ r m t, n ≤ m → Q r m t → Leads exec e R (g (.done r)) m t) :
    Leads exec e R (g p) n s := by
  induction p generalizing n s with
  | done r => exact hdone r n s (Nat.le_refl n) h
  | perform op next ih =>
    obtain ⟨a, t, hx, hnext⟩ := h
    rw [hg]
    exact ⟨a, t, hx, ih a hnext fun r m u hm => hdone r m u (by omega)⟩

theorem Leads.bind {R : Except ε β → ℕ → σ → Prop} {f : α → Program Ans ε β}
    (h : Leads exec e Q p n s)
    (hok : ∀ a m t, n ≤ m → Q (.ok a) m t → Leads exec e R (f a) m t)
    (herror : ∀ x m t, n ≤ m → Q (.error x) m t → R (.error x) m t) :
    Leads exec e R (p.bind f) n s := by
  refine h.continued (Program.continues_bind f) fun r m t hm hr => ?_
  cases r with
  | ok a => exact hok a m t hm hr
  | error x => exact herror x m t hm hr

theorem Leads.tryCatch {handler : ε → Program Ans ε α} (h : Leads exec e Q p n s)
    (hok : ∀ a m t, n ≤ m → Q (.ok a) m t → Q' (.ok a) m t)
    (herror : ∀ x m t, n ≤ m → Q (.error x) m t → Leads exec e Q' (handler x) m t) :
    Leads exec e Q' (p.tryCatch handler) n s := by
  refine h.continued (Program.continues_tryCatch handler) fun r m t hm hr => ?_
  cases r with
  | ok a => exact hok a m t hm hr
  | error x => exact herror x m t hm hr

theorem Leads.tryFinally {cleanup : Program Ans ε Unit} (h : Leads exec e Q p n s)
    (hcleanup : ∀ r m t, n ≤ m → Q r m t →
      Leads exec e Q' (cleanup.bind fun _ => .done r) m t) :
    Leads exec e Q' (p.tryFinally cleanup) n s :=
  h.continued (Program.continues_tryFinally cleanup) hcleanup

end Rules

/-- The programs perform the same number of effects, and end with outcomes and states
in `Q`. -/
def Alike (Q : Except ε α → σ → Except ε α → σ → Prop) :
    Program Ans ε α → σ → Program Ans ε α → σ → ℕ → Prop
  | .done r, s, .done r', s', _ => Q r s r' s'
  | .perform op next, s, .perform op' next', s', n =>
    ∃ a t a' t', exec (e n) op s = some (a, t) ∧ exec (e n) op' s' = some (a', t') ∧
      Alike Q (next a) t (next' a') t' (n + 1)
  | .done _, _, .perform _ _, _, _ | .perform _ _, _, .done _, _, _ => False

section Rules

variable {exec e} {Q : Except ε α → σ → Except ε α → σ → Prop} {p p' : Program Ans ε α} {n : ℕ}
  {s s' : σ}

theorem Alike.runs (h : Alike exec e Q p s p' s' n) :
    ∃ r r' m t t', runFrom exec e p n s = some (r, m, t) ∧
      runFrom exec e p' n s' = some (r', m, t') ∧ Q r t r' t' := by
  induction p generalizing p' n s s' with
  | done r =>
    cases p' with
    | done r' => exact ⟨r, r', n, s, s', rfl, rfl, h⟩
    | perform op' next' => exact h.elim
  | perform op next ih =>
    cases p' with
    | done r' => exact h.elim
    | perform op' next' =>
      obtain ⟨a, t, a', t', hx, hx', hnext⟩ := h
      obtain ⟨r, r', m, u, u', hrun, hrun', hQ⟩ := ih a hnext
      refine ⟨r, r', m, u, u', ?_, ?_, hQ⟩
      · rw [runFrom, hx]
        exact hrun
      · rw [runFrom, hx']
        exact hrun'

/-- What goes on after two programs starts from outcomes of both. -/
theorem Alike.continued {R : Except ε β → σ → Except ε β → σ → Prop}
    {g g' : Program Ans ε α → Program Ans ε β} (h : Alike exec e Q p s p' s' n)
    (hg : Program.Continues g) (hg' : Program.Continues g')
    (hdone : ∀ r t r' t' m, Q r t r' t' →
      Alike exec e R (g (.done r)) t (g' (.done r')) t' m) :
    Alike exec e R (g p) s (g' p') s' n := by
  induction p generalizing p' n s s' with
  | done r =>
    cases p' with
    | done r' => exact hdone r s r' s' n h
    | perform op' next' => exact h.elim
  | perform op next ih =>
    cases p' with
    | done r' => exact h.elim
    | perform op' next' =>
      obtain ⟨a, t, a', t', hx, hx', hnext⟩ := h
      rw [hg, hg']
      exact ⟨a, t, a', t', hx, hx', ih a hnext⟩

theorem Alike.bind {R : Except ε β → σ → Except ε β → σ → Prop} {f f' : α → Program Ans ε β}
    (h : Alike exec e Q p s p' s' n)
    (hQ : ∀ r t r' t' m, Q r t r' t' →
      Alike exec e R ((Program.done r).bind f) t ((Program.done r').bind f') t' m) :
    Alike exec e R (p.bind f) s (p'.bind f') s' n :=
  h.continued (Program.continues_bind f) (Program.continues_bind f') hQ

theorem Alike.tryCatch {R : Except ε α → σ → Except ε α → σ → Prop}
    {handler : ε → Program Ans ε α} (h : Alike exec e Q p s p' s' n)
    (hQ : ∀ r t r' t' m, Q r t r' t' → Alike exec e R ((Program.done r).tryCatch handler) t
      ((Program.done r').tryCatch handler) t' m) :
    Alike exec e R (p.tryCatch handler) s (p'.tryCatch handler) s' n :=
  h.continued (Program.continues_tryCatch handler) (Program.continues_tryCatch handler) hQ

theorem Alike.tryFinally {R : Except ε α → σ → Except ε α → σ → Prop}
    {cleanup : Program Ans ε Unit} (h : Alike exec e Q p s p' s' n)
    (hQ : ∀ r t r' t' m, Q r t r' t' →
      Alike exec e R (cleanup.bind fun _ => .done r) t (cleanup.bind fun _ => .done r') t' m) :
    Alike exec e R (p.tryFinally cleanup) s (p'.tryFinally cleanup) s' n :=
  h.continued (Program.continues_tryFinally cleanup) (Program.continues_tryFinally cleanup) hQ

end Rules

/-- A request that was served, the moments of its first effect and after its last, what it
returned and the state that it left. -/
structure Entry (ρ ω σ : Type) where
  request : ρ
  start : ℕ
  finish : ℕ
  answer : ω
  state : σ

/-- The log of a session that starts in the state `s₀` and all of whose requests meet the
condition `ok`, with the moment and the state that it has reached. -/
inductive Session {ρ ω : Type} (serve : ρ → ℕ → σ → Option (ω × ℕ × σ)) (ok : σ → ρ → Prop)
    (s₀ : σ) : List (Entry ρ ω σ) → ℕ → σ → Prop where
  | start : Session serve ok s₀ [] 0 s₀
  | serve {log n s request a m t} (before : Session serve ok s₀ log n s) (hok : ok s request)
      (served : serve request n s = some (a, m, t)) :
      Session serve ok s₀ (log ++ [⟨request, n, m, a, t⟩]) m t

section Sessions

variable {ρ ω : Type} {serve : ρ → ℕ → σ → Option (ω × ℕ × σ)} {ok : σ → ρ → Prop} {s₀ : σ}

/-- Serve requests in order; it fails at a request that breaks the condition. -/
def serveAll (serve : ρ → ℕ → σ → Option (ω × ℕ × σ)) (ok : σ → ρ → Prop)
    [∀ s request, Decidable (ok s request)] :
    List ρ → List (Entry ρ ω σ) × ℕ × σ → Option (List (Entry ρ ω σ) × ℕ × σ)
  | [], reached => some reached
  | request :: rest, (log, n, s) =>
    if ok s request then
      (serve request n s).bind fun (a, m, t) =>
        serveAll serve ok rest (log ++ [⟨request, n, m, a, t⟩], m, t)
    else none

theorem session_of_serveAll [∀ s request, Decidable (ok s request)] {requests : List ρ}
    {reached reached' : List (Entry ρ ω σ) × ℕ × σ}
    (h : Session serve ok s₀ reached.1 reached.2.1 reached.2.2)
    (hserve : serveAll serve ok requests reached = some reached') :
    Session serve ok s₀ reached'.1 reached'.2.1 reached'.2.2 := by
  induction requests generalizing reached with
  | nil => exact Option.some.inj hserve ▸ h
  | cons request rest ih =>
    obtain ⟨log, n, s⟩ := reached
    simp only [serveAll] at hserve
    split at hserve
    · rename_i hok
      obtain ⟨⟨a, m, t⟩, hs, hrest⟩ := Option.bind_eq_some_iff.mp hserve
      exact ih (.serve h hok hs) hrest
    · cases hserve

/-- The session that these requests make; requests that cannot be served make none. -/
def sessionOf (serve : ρ → ℕ → σ → Option (ω × ℕ × σ)) (ok : σ → ρ → Prop)
    [∀ s request, Decidable (ok s request)] (s₀ : σ) (requests : List ρ) :
    List (Entry ρ ω σ) × ℕ × σ :=
  (serveAll serve ok requests ([], 0, s₀)).getD ([], 0, s₀)

theorem session_sessionOf [∀ s request, Decidable (ok s request)] (requests : List ρ) :
    Session serve ok s₀ (sessionOf serve ok s₀ requests).1 (sessionOf serve ok s₀ requests).2.1
      (sessionOf serve ok s₀ requests).2.2 := by
  unfold sessionOf
  cases h : serveAll serve ok requests ([], 0, s₀) with
  | none => exact .start
  | some reached => exact session_of_serveAll .start h

end Sessions

end ChatMicroservices.SequentialPrograms

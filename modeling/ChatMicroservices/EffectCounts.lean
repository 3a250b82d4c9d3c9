import ChatMicroservices.EffectPrograms

/-!
# How often a program performs an effect

A bound on the number of effects of some kind that a program performs, whatever the answers
are, and programs that perform such an effect unless they throw. Bounds add up along a program.
-/

namespace ChatMicroservices.EffectPrograms.Program

variable {Op : Type} {Ans : Op → Type} {ε α β σ : Type}

/-- The program performs at most `n` effects of `P`. -/
def AtMost (P : Op → Bool) : ℕ → Program Ans ε α → Prop
  | _, done _ => True
  | n, perform op next =>
    if P op then 0 < n ∧ ∀ a, (next a).AtMost P (n - 1) else ∀ a, (next a).AtMost P n

section Rules

variable {P : Op → Bool} {p : Program Ans ε α} {m n : ℕ}

@[simp] theorem atMost_done (r : Except ε α) : (done r : Program Ans ε α).AtMost P n := trivial

theorem AtMost.mono (h : p.AtMost P m) (hmn : m ≤ n) : p.AtMost P n := by
  induction p generalizing m n with
  | done r => trivial
  | perform op next ih =>
    rw [AtMost] at h ⊢
    split
    · rename_i hop
      rw [if_pos hop] at h
      exact ⟨by omega, fun a => ih a (h.2 a) (by omega)⟩
    · rename_i hop
      rw [if_neg hop] at h
      exact fun a => ih a (h a) hmn

/-- A program without such effects. -/
theorem atMost_of_issues (h : p.Issues fun op => P op = false) : p.AtMost P n := by
  induction p with
  | done r => trivial
  | perform op next ih =>
    rw [AtMost, if_neg (by simp [h.1])]
    exact fun a => ih a (h.2 a)

theorem atMost_call (op : Op) : (call op : Program Ans ε (Ans op)).AtMost P 1 := by
  rw [call, AtMost]
  split
  · exact ⟨Nat.one_pos, fun _ => trivial⟩
  · exact fun _ => trivial

theorem AtMost.continued {g : Program Ans ε α → Program Ans ε β} (h : p.AtMost P m)
    (hg : Continues g) (hdone : ∀ r, (g (done r)).AtMost P n) : (g p).AtMost P (m + n) := by
  induction p generalizing m with
  | done r => exact (hdone r).mono (Nat.le_add_left n m)
  | perform op next ih =>
    rw [hg, AtMost]
    rw [AtMost] at h
    split
    · rename_i hop
      rw [if_pos hop] at h
      refine ⟨by omega, fun a => ?_⟩
      have hrest := ih a (h.2 a)
      rwa [← Nat.sub_add_comm h.1] at hrest
    · rename_i hop
      rw [if_neg hop] at h
      exact fun a => ih a (h a)

theorem AtMost.bind {f : α → Program Ans ε β} (h : p.AtMost P m) (hf : ∀ a, (f a).AtMost P n) :
    (p.bind f).AtMost P (m + n) := by
  refine h.continued (continues_bind f) fun r => ?_
  cases r with
  | ok a => exact hf a
  | error e => trivial

theorem AtMost.attempt {p : Program Ans ε (Except ε α)} (h : p.AtMost P m) :
    p.attempt.AtMost P m := h.bind (n := 0) fun _ => trivial

theorem AtMost.tryCatch {handler : ε → Program Ans ε α} (h : p.AtMost P m)
    (hhandler : ∀ e, (handler e).AtMost P n) : (p.tryCatch handler).AtMost P (m + n) := by
  refine h.continued (continues_tryCatch handler) fun r => ?_
  cases r with
  | ok a => trivial
  | error e => exact hhandler e

/-- A run performs no more of them than the bound says. -/
theorem AtMost.countP_trace (h : p.AtMost P n) (exec : (op : Op) → σ → Ans op × σ) (s : σ) :
    (p.trace exec s).countP (fun e => P e.1) ≤ n := by
  induction p generalizing n s with
  | done r => exact Nat.zero_le n
  | perform op next ih =>
    rw [AtMost] at h
    rw [trace_perform, List.countP_cons]
    by_cases hop : P op = true
    · rw [if_pos hop] at h
      have hrest := ih _ (h.2 (exec op s).1) (exec op s).2
      rw [if_pos hop]
      omega
    · rw [if_neg hop] at h
      rw [if_neg hop, Nat.add_zero]
      exact ih _ (h _) _

end Rules

/-- The program performs an effect of `P`, or ends with an exception. -/
def Surely (P : Op → Prop) : Program Ans ε α → Prop
  | done r => ∀ a, r ≠ .ok a
  | perform op next => P op ∨ ∀ a, (next a).Surely P

section Certainty

variable {P : Op → Prop} {p : Program Ans ε α}

theorem surely_error (e : ε) : (done (.error e) : Program Ans ε α).Surely P :=
  fun _ h => (by cases h)

theorem surely_call {op : Op} (h : P op) : (call op : Program Ans ε (Ans op)).Surely P := .inl h

theorem Surely.continued {g : Program Ans ε α → Program Ans ε β} (h : p.Surely P)
    (hg : Continues g) (hdone : ∀ e, (g (done (.error e))).Surely P) : (g p).Surely P := by
  induction p with
  | done r =>
    cases r with
    | ok a => exact absurd rfl (h a)
    | error e => exact hdone e
  | perform op next ih =>
    rw [hg]
    exact h.imp_right fun hnext a => ih a (hnext a)

/-- What goes on after a program that returns performs the effect. -/
theorem surely_bind {f : α → Program Ans ε β} (p : Program Ans ε α)
    (hf : ∀ a, (f a).Surely P) : (p.bind f).Surely P := by
  induction p with
  | done r =>
    cases r with
    | ok a => exact hf a
    | error e => exact surely_error e
  | perform op next ih => exact .inr ih

theorem Surely.tryCatch {handler : ε → Program Ans ε α} (h : p.Surely P)
    (hhandler : ∀ e, (handler e).Surely P) : (p.tryCatch handler).Surely P :=
  h.continued (continues_tryCatch handler) hhandler

theorem Surely.tryFinally {cleanup : Program Ans ε Unit} (h : p.Surely P) :
    (p.tryFinally cleanup).Surely P :=
  h.continued (continues_tryFinally cleanup) fun e => surely_bind cleanup fun _ => surely_error e

end Certainty

end ChatMicroservices.EffectPrograms.Program

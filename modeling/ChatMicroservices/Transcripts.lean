import Mathlib.Data.List.Induction

/-!
# Machines that answer events

A deterministic machine moves with every event and answers it. What holds of the state may
speak about the whole history of events.
-/

namespace ChatMicroservices.Transcripts

variable {σ τ ε ω : Type}

/-- The state after some events. -/
def after (step : σ → ε → ω × σ) (s : σ) (events : List ε) : σ :=
  events.foldl (fun s event => (step s event).2) s

/-- The answers to some events. -/
def answers (step : σ → ε → ω × σ) : σ → List ε → List ω
  | _, [] => []
  | s, event :: events => (step s event).1 :: answers step (step s event).2 events

section Runs

variable (step : σ → ε → ω × σ) (s : σ)

@[simp] theorem after_nil : after step s [] = s := rfl

@[simp] theorem after_cons (event : ε) (events : List ε) :
    after step s (event :: events) = after step (step s event).2 events := rfl

@[simp] theorem after_append (events events' : List ε) :
    after step s (events ++ events') = after step (after step s events) events' :=
  List.foldl_append

theorem length_answers (events : List ε) : (answers step s events).length = events.length := by
  induction events generalizing s with
  | nil => rfl
  | cons event events ih => simp [answers, ih]

theorem answers_append (events events' : List ε) :
    answers step s (events ++ events') =
      answers step s events ++ answers step (after step s events) events' := by
  induction events generalizing s with
  | nil => rfl
  | cons event events ih => simp [answers, ih]

end Runs

/-- What holds of the empty history, and of a longer one with every event, holds of every
history and the state after it. -/
theorem after_history {step : σ → ε → ω × σ} {s : σ} {R : List ε → σ → Prop} (hnil : R [] s)
    (hstep : ∀ history t event, R history t → R (history ++ [event]) (step t event).2)
    (history : List ε) : R history (after step s history) := by
  induction history using List.reverseRecOn with
  | nil => exact hnil
  | append_singleton history event ih =>
    rw [after_append, after_cons, after_nil]
    exact hstep history _ event ih

/-- Two machines answer alike if and only if they do so after every prefix of the events. -/
theorem answers_eq_iff {step : σ → ε → ω × σ} {step' : τ → ε → ω × τ} {s : σ} {t : τ}
    {events : List ε} : answers step s events = answers step' t events ↔
      ∀ before event rest, events = before ++ event :: rest →
        (step (after step s before) event).1 = (step' (after step' t before) event).1 := by
  induction events generalizing s t with
  | nil => simp [answers]
  | cons first events ih =>
    rw [answers, answers, List.cons.injEq, ih]
    constructor
    · rintro ⟨hfirst, hrest⟩ before event rest hsplit
      cases before with
      | nil =>
        obtain ⟨rfl, -⟩ := List.cons.inj hsplit
        exact hfirst
      | cons head before =>
        obtain ⟨rfl, hsplit'⟩ := List.cons.inj hsplit
        exact hrest before event rest hsplit'
    · intro h
      refine ⟨h [] first events rfl, fun before event rest hsplit => ?_⟩
      exact h (first :: before) event rest (congrArg _ hsplit)

end ChatMicroservices.Transcripts

import ChatMicroservices.TypingIndicators

/-!
# The map of typing timers

Between two events of any run the values of `typingTimeouts` are exactly the armed timers, each
under the user who is typing, and a timer that expires takes its own entry with it.
-/

namespace ChatMicroservices.TypingTimerMap
open JavaScriptValues EffectPrograms MessagesTable ChatEffects SocketHandlers TypingIndicators

/-- The map and the armed timers between two events. -/
structure InStep (t : TypingTimers) : Prop where
  values : ∀ handle, (∃ userId, (userId, handle) ∈ t.typingTimeouts) ↔
    ∃ timer ∈ t.armed, timer.handle = handle
  owned : ∀ timer ∈ t.armed, (timer.userId, timer.handle) ∈ t.typingTimeouts
  users_nodup : (t.typingTimeouts.map Prod.fst).Nodup
  values_nodup : (t.typingTimeouts.map Prod.snd).Nodup
  single : ∀ a ∈ t.armed, ∀ b ∈ t.armed, a.userId = b.userId → a = b

/-- Of the entries and of the armed timers only those of `handle` are gone. -/
structure Dismissed (handle : ℕ) (t t' : TypingTimers) : Prop where
  entries : ∀ e, e ∈ t'.typingTimeouts ↔ e ∈ t.typingTimeouts ∧ e.2 ≠ handle
  timers : ∀ timer, timer ∈ t'.armed ↔ timer ∈ t.armed ∧ timer.handle ≠ handle

section Timers

variable {t : TypingTimers}

theorem value_unique (h : Tidy t) {e f : JsString × ℕ} (he : e ∈ t.typingTimeouts)
    (hf : f ∈ t.typingTimeouts) (hef : e.2 = f.2) : e = f := by
  obtain ⟨a, ha, rfl⟩ := h.timer e he
  obtain ⟨b, hb, rfl⟩ := h.timer f hf
  rw [h.timer_eq ha hb hef]

theorem inStep_of_tidy (h : Tidy t) : InStep t where
  values := by
    intro handle
    constructor
    · rintro ⟨userId, he⟩
      obtain ⟨timer, htimer, hentry⟩ := h.timer _ he
      exact ⟨timer, htimer, congrArg Prod.snd hentry⟩
    · rintro ⟨timer, htimer, rfl⟩
      exact ⟨timer.userId, h.entry timer htimer⟩
  owned := h.entry
  users_nodup := h.keys
  values_nodup := by
    have hnodup : t.typingTimeouts.Nodup := h.keys.of_map Prod.fst
    exact hnodup.map_on fun e he f hf hef => value_unique h he hf hef
  single := fun a ha b hb hab => h.timer_unique ha hb hab

/-- An expiring timer leaves the entries and the timers of the others alone. -/
theorem dismissed_of_armed (h : Tidy t) {timer : Timer} (htimer : timer ∈ t.armed) :
    Dismissed timer.handle t ((fire t timer.handle).delete timer.userId) := by
  rw [h.fire htimer]
  constructor
  · intro e
    simp only [List.mem_filter, decide_eq_true_eq]
    refine and_congr_right fun he => not_congr ?_
    obtain ⟨other, hother, rfl⟩ := h.timer e he
    exact ⟨fun hu => by rw [h.timer_unique hother htimer hu],
      fun hh => by rw [h.timer_eq hother htimer hh]⟩
  · intro other
    simp only [List.mem_filter, decide_eq_true_eq]
    refine and_congr_right fun hother => not_congr ?_
    exact ⟨fun hu => by rw [h.timer_unique hother htimer hu],
      fun hh => by rw [h.timer_eq hother htimer hh]⟩

/-- Of a timer that was cleared or has fired nothing is left to dismiss. -/
theorem dismissed_of_not_armed (h : Tidy t) {handle : ℕ}
    (hnot : ∀ timer ∈ t.armed, timer.handle ≠ handle) : Dismissed handle t t := by
  constructor
  · intro e
    refine (and_iff_left_of_imp fun he => ?_).symm
    obtain ⟨timer, htimer, rfl⟩ := h.timer e he
    exact hnot timer htimer
  · exact fun timer => (and_iff_left_of_imp (hnot timer)).symm

end Timers

section Runs

variable {τ : Type} {repo : Repository τ} {w : World τ}

theorem expire_dismisses (h : Tidy w.typing) (here : Surroundings) (handle : ℕ) :
    Dismissed handle w.typing (step repo w (here, .expire handle)).2.typing := by
  by_cases harmed : ∃ timer ∈ w.typing.armed, timer.handle = handle
  · obtain ⟨timer, htimer, rfl⟩ := harmed
    rw [expire_step here h htimer]
    exact dismissed_of_armed h htimer
  · have hnot : ∀ timer ∈ w.typing.armed, timer.handle ≠ handle :=
      fun timer htimer hh => harmed ⟨timer, htimer, hh⟩
    have hstep : (step repo w (here, .expire handle)).2 = w := by
      rw [expire_unarmed here hnot]
    rw [hstep]
    exact dismissed_of_not_armed h hnot

/-- In every run from the start, whatever the tables and the surroundings. -/
theorem timers_in_step (repo : Repository τ) (db : τ) (run : List (Surroundings × Event)) :
    (∀ history, history <+: run →
      InStep (worldAfter repo ⟨db, TypingTimers.empty⟩ history).typing) ∧
    ∀ before here handle rest, run = before ++ (here, .expire handle) :: rest →
      Dismissed handle (worldAfter repo ⟨db, TypingTimers.empty⟩ before).typing
        (worldAfter repo ⟨db, TypingTimers.empty⟩ (before ++ [(here, .expire handle)])).typing := by
  have htidy : ∀ history, Tidy (worldAfter repo ⟨db, TypingTimers.empty⟩ history).typing :=
    fun history => (pending_after ⟨tidy_empty, by simp [TypingTimers.empty]⟩ history).tidy
  constructor
  · intro history _
    exact inStep_of_tidy (htidy history)
  · rintro before here handle rest -
    rw [worldAfter_concat]
    exact expire_dismisses (htidy before) here handle

end Runs

end ChatMicroservices.TypingTimerMap

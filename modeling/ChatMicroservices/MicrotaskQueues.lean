import ChatMicroservices.EffectPrograms

/-!
# Programs on a microtask queue

An asynchronous function runs at once until it waits for the first time. Where it waits for
a promise that is already settled, the rest of it goes to the end of a queue, and the queue
is served in order between the events of the outside.
-/

namespace ChatMicroservices.MicrotaskQueues
open EffectPrograms

variable {Op Op' σ : Type} {Ans : Op → Type} {Ans' : Op' → Type} {ε α β : Type}

/-- A program over some of the operations, as one over all of them. -/
def embed (f : Op → Op') (answer : ∀ op, Ans' (f op) → Ans op) :
    Program Ans ε α → Program Ans' ε α
  | .done r => .done r
  | .perform op next => .perform (f op) fun a => embed f answer (next (answer op a))

section Segments

variable (waits : Op → Bool) (exec : (op : Op) → σ → Ans op × σ)

/-- The effects of a program up to the first one it waits for: its outcome, or what is left
of it. -/
def runSegment : Program Ans ε α → σ → (Except ε α ⊕ Program Ans ε α) × σ
  | .done r, s => (.inl r, s)
  | .perform op next, s =>
    if waits op then (.inr (next (exec op s).1), (exec op s).2)
    else runSegment (next (exec op s).1) (exec op s).2

variable {waits}

/-- A program that does not wait runs to its end. -/
theorem segment_of_issues {p : Program Ans ε α} (h : p.Issues fun op => waits op = false)
    (s : σ) : runSegment waits exec p s = ((p.run exec s).map .inl id) := by
  induction p generalizing s with
  | done r => rfl
  | perform op next ih =>
    rw [runSegment, h.1]
    exact ih _ (h.2 _) _

end Segments

structure EventLoop {Op : Type} (Ans : Op → Type) (ε σ : Type) where
  world : σ
  microtasks : List (Program Ans ε Unit)

namespace EventLoop

variable (waits : Op → Bool) (exec : (op : Op) → σ → Ans op × σ)

/-- Call an asynchronous function. -/
def start (loop : EventLoop Ans ε σ) (p : Program Ans ε Unit) : EventLoop Ans ε σ :=
  let (rest, world) := runSegment waits exec p loop.world
  ⟨world, loop.microtasks ++ rest.getRight?.toList⟩

/-- Go on with the oldest microtask. -/
def turn (loop : EventLoop Ans ε σ) : EventLoop Ans ε σ :=
  match loop.microtasks with
  | [] => loop
  | task :: tasks => start waits exec ⟨loop.world, tasks⟩ task

@[simp] theorem turn_cons (s : σ) (task : Program Ans ε Unit)
    (tasks : List (Program Ans ε Unit)) :
    turn waits exec ⟨s, task :: tasks⟩ = start waits exec ⟨s, tasks⟩ task := rfl

variable {waits}

theorem start_of_issues (loop : EventLoop Ans ε σ) {p : Program Ans ε Unit}
    (h : p.Issues fun op => waits op = false) :
    loop.start waits exec p = ⟨(p.run exec loop.world).2, loop.microtasks⟩ := by
  simp [start, segment_of_issues exec h]

end EventLoop

end ChatMicroservices.MicrotaskQueues

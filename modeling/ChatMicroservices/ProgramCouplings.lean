import ChatMicroservices.EffectCounts
import ChatMicroservices.RelatedLists
import Mathlib.Data.Sum.Basic

/-!
# Programs that are run side by side

Two runs whose answers an observer takes for the same. If the programs are coupled effect by
effect, the observer takes the effects and the outcomes of the runs for the same as well.
-/

namespace ChatMicroservices.EffectPrograms
open RelatedLists

variable {Op Op₀ : Type} {Ans : Op → Type} {Ans₀ : Op₀ → Type} {ε α α' β β' : Type}

/-- Which effects an observer takes for the same, and which answers to them. -/
structure Coupling {Op : Type} (Ans : Op → Type) where
  effects : Op → Op → Prop
  answers : (op op' : Op) → Ans op → Ans op' → Prop

/-- Outcomes that go together: values by `V`, exceptions by `E`. -/
def Agree (V : α → α' → Prop) (E : ε → ε → Prop) : Except ε α → Except ε α' → Prop
  | .ok a, .ok a' => V a a'
  | .error e, .error e' => E e e'
  | _, _ => False

theorem Agree.mono {V W : α → α' → Prop} {E E' : ε → ε → Prop} {r : Except ε α}
    {r' : Except ε α'} (h : Agree V E r r') (hV : ∀ a a', V a a' → W a a')
    (hE : ∀ e e', E e e' → E' e e') : Agree W E' r r' := by
  cases r with
  | ok a =>
    cases r' with
    | ok a' => exact hV a a' h
    | error e' => exact h.elim
  | error e =>
    cases r' with
    | ok a' => exact h.elim
    | error e' => exact hE e e' h

/-- Only answers to one and the same effect are compared. -/
def sameEffect (alike : (op : Op) → Ans op → Ans op → Prop) (op op' : Op) (a : Ans op)
    (a' : Ans op') : Prop := ∀ h : op = op', alike op' (h ▸ a) a'

/-- Answers to two kinds of effects. -/
def sumAnswers (answers₀ : (op op' : Op₀) → Ans₀ op → Ans₀ op' → Prop)
    (answers : (op op' : Op) → Ans op → Ans op' → Prop) :
    (op op' : Op₀ ⊕ Op) → Sum.elim Ans₀ Ans op → Sum.elim Ans₀ Ans op' → Prop
  | .inl op, .inl op' => answers₀ op op'
  | .inr op, .inr op' => answers op op'
  | _, _ => fun _ _ => True

/-- The observer of two kinds of effects. -/
def Coupling.sum (c₀ : Coupling Ans₀) (c : Coupling Ans) : Coupling (Sum.elim Ans₀ Ans) where
  effects := Sum.LiftRel c₀.effects c.effects
  answers := sumAnswers c₀.answers c.answers

/-- Runs whose answers are alike one by one, as far as both of them go. -/
def AlikeRuns (answers : (op op' : Op) → Ans op → Ans op' → Prop) :
    List ((op : Op) × Ans op) → List ((op : Op) × Ans op) → Prop
  | ⟨op, a⟩ :: run, ⟨op', a'⟩ :: run' => answers op op' a a' ∧ AlikeRuns answers run run'
  | _, _ => True

/-- A run is like itself if each of its answers is. -/
theorem alikeRuns_self {answers : (op op' : Op) → Ans op → Ans op' → Prop}
    {run : List ((op : Op) × Ans op)}
    (h : ∀ event ∈ run, answers event.1 event.1 event.2 event.2) : AlikeRuns answers run run := by
  induction run with
  | nil => trivial
  | cons event run ih =>
    exact ⟨h event List.mem_cons_self,
      ih fun event' hmem => h event' (List.mem_cons_of_mem event hmem)⟩

namespace Program

/-- The programs perform effects that the observer takes for the same as long as the answers
are alike, and then they end together. -/
def Coupled (c : Coupling Ans) (V : α → α' → Prop) (E : ε → ε → Prop) :
    Program Ans ε α → Program Ans ε α' → Prop
  | done r, done r' => Agree V E r r'
  | perform op next, perform op' next' =>
    c.effects op op' ∧ ∀ a a', c.answers op op' a a' → (next a).Coupled c V E (next' a')
  | _, _ => False

/-- An effect of the first kind. -/
def callLeft (op : Op₀) : Program (Sum.elim Ans₀ Ans) ε (Ans₀ op) :=
  perform (.inl op) fun a => done (.ok a)

/-- A program whose effects are of the second kind. -/
def lift : Program Ans ε α → Program (Sum.elim Ans₀ Ans) ε α
  | done r => done r
  | perform op next => perform (.inr op) fun a => (next a).lift

/-- The programs one after the other, with their values. -/
def inTurn : List (Program Ans ε α) → Program Ans ε (List α)
  | [] => done (.ok [])
  | p :: ps => p.bind fun a => (inTurn ps).bind fun as => done (.ok (a :: as))

/-- `Promise.all` of programs that throw nothing. Their effects come in the order of the
schedule, and in turn when it has come to its end. -/
def together : List ℕ → List (Program Ans ε α) → Program Ans ε (List α)
  | [], ps => inTurn ps
  | i :: schedule, ps =>
    match ps[i]? with
    | some (perform op next) => perform op fun a => together schedule (ps.set i (next a))
    | _ => together schedule ps

/-- The program performs the effects of the run, gets its answers, and ends with `r`. -/
inductive Performs : Program Ans ε α → List ((op : Op) × Ans op) → Except ε α → Prop
  | done (r : Except ε α) : Performs (done r) [] r
  | perform {op : Op} {next : Ans op → Program Ans ε α} {a : Ans op}
      {run : List ((op : Op) × Ans op)} {r : Except ε α} (rest : Performs (next a) run r) :
      Performs (perform op next) (⟨op, a⟩ :: run) r

theorem Surely.lift {P : Op → Prop} {p : Program Ans ε α} (h : p.Surely P) :
    (p.lift : Program (Sum.elim Ans₀ Ans) ε α).Surely (Sum.elim (fun _ => False) P) := by
  induction p with
  | done r => exact h
  | perform op next ih => exact h.imp_right fun hnext a => ih a (hnext a)

/-- A run that returns a value has performed the effect. -/
theorem Surely.performs {P : Op → Prop} {p : Program Ans ε α}
    {run : List ((op : Op) × Ans op)} {r : Except ε α} (h : p.Surely P) (hrun : p.Performs run r)
    {a : α} (hr : r = .ok a) : ∃ event ∈ run, P event.1 := by
  induction hrun with
  | done r => exact absurd hr (h a)
  | @perform op next answer run r rest ih =>
    rcases h with hop | hnext
    · exact ⟨_, List.mem_cons_self, hop⟩
    · obtain ⟨event, hmem, hevent⟩ := ih (hnext answer) hr
      exact ⟨event, List.mem_cons_of_mem _ hmem, hevent⟩

section Rules

variable {c : Coupling Ans} {V : α → α' → Prop} {V' : β → β' → Prop} {E E' : ε → ε → Prop}
variable {p : Program Ans ε α} {p' : Program Ans ε α'}

theorem coupled_done {r : Except ε α} {r' : Except ε α'} (h : Agree V E r r') :
    (done r : Program Ans ε α).Coupled c V E (done r') := h

/-- Two effects that the observer takes for the same. -/
theorem coupled_calls {op op' : Op} {W : Ans op → Ans op' → Prop} (h : c.effects op op')
    (hW : ∀ a a', c.answers op op' a a' → W a a') :
    (call op : Program Ans ε (Ans op)).Coupled c W E (call op') := ⟨h, hW⟩

/-- The same effect, whose answers are compared by what fits it. -/
theorem coupled_call {effects : Op → Op → Prop} {alike : (op : Op) → Ans op → Ans op → Prop}
    (op : Op) (h : effects op op) :
    (call op : Program Ans ε (Ans op)).Coupled ⟨effects, sameEffect alike⟩ (alike op) E
      (call op) :=
  coupled_calls h fun _ _ ha => ha rfl

theorem coupled_callsLeft {c₀ : Coupling Ans₀} {op op' : Op₀} {W : Ans₀ op → Ans₀ op' → Prop}
    (h : c₀.effects op op') (hW : ∀ a a', c₀.answers op op' a a' → W a a') :
    (callLeft op : Program (Sum.elim Ans₀ Ans) ε (Ans₀ op)).Coupled (c₀.sum c) W E
      (callLeft op') :=
  ⟨.inl h, hW⟩

theorem Coupled.mono {W : α → α' → Prop} (h : p.Coupled c V E p')
    (hV : ∀ a a', V a a' → W a a') (hE : ∀ e e', E e e' → E' e e') : p.Coupled c W E' p' := by
  induction p generalizing p' with
  | done r =>
    cases p' with
    | done r' => exact Agree.mono h hV hE
    | perform op' next' => exact h
  | perform op next ih =>
    cases p' with
    | done r' => exact h
    | perform op' next' => exact ⟨h.1, fun a a' ha => ih a (h.2 a a' ha)⟩

/-- What goes on after the outcomes of coupled programs. -/
theorem Coupled.continued {g : Program Ans ε α → Program Ans ε β}
    {g' : Program Ans ε α' → Program Ans ε β'} (h : p.Coupled c V E p') (hg : Continues g)
    (hg' : Continues g')
    (hdone : ∀ r r', Agree V E r r' → (g (done r)).Coupled c V' E' (g' (done r'))) :
    (g p).Coupled c V' E' (g' p') := by
  induction p generalizing p' with
  | done r =>
    cases p' with
    | done r' => exact hdone r r' h
    | perform op' next' => exact h.elim
  | perform op next ih =>
    cases p' with
    | done r' => exact h.elim
    | perform op' next' =>
      rw [hg, hg']
      exact ⟨h.1, fun a a' ha => ih a (h.2 a a' ha)⟩

theorem Coupled.bind {f : α → Program Ans ε β} {f' : α' → Program Ans ε β'}
    (h : p.Coupled c V E p') (hf : ∀ a a', V a a' → (f a).Coupled c V' E (f' a')) :
    (p.bind f).Coupled c V' E (p'.bind f') := by
  refine h.continued (continues_bind f) (continues_bind f') fun r r' hr => ?_
  cases r with
  | ok a =>
    cases r' with
    | ok a' => exact hf a a' hr
    | error e' => exact hr.elim
  | error e =>
    cases r' with
    | ok a' => exact hr.elim
    | error e' => exact hr

theorem Coupled.map {f : α → β} {f' : α' → β'} (h : p.Coupled c V E p')
    (hf : ∀ a a', V a a' → V' (f a) (f' a')) : (f <$> p).Coupled c V' E (f' <$> p') :=
  h.bind fun a a' ha => hf a a' ha

/-- A call whose answers are values or exceptions. -/
theorem Coupled.attempt {p : Program Ans ε (Except ε α)} {p' : Program Ans ε (Except ε α')}
    (h : p.Coupled c (Agree V E) E p') : p.attempt.Coupled c V E p'.attempt :=
  h.bind fun _ _ ha => ha

theorem Coupled.tryCatch {handler : ε → Program Ans ε α} {handler' : ε → Program Ans ε α'}
    (h : p.Coupled c V E p')
    (hh : ∀ e e', E e e' → (handler e).Coupled c V E' (handler' e')) :
    (p.tryCatch handler).Coupled c V E' (p'.tryCatch handler') := by
  refine h.continued (continues_tryCatch handler) (continues_tryCatch handler')
    fun r r' hr => ?_
  cases r with
  | ok a =>
    cases r' with
    | ok a' => exact hr
    | error e' => exact hr.elim
  | error e =>
    cases r' with
    | ok a' => exact hr.elim
    | error e' => exact hh e e' hr

theorem Coupled.tryFinally {cleanup cleanup' : Program Ans ε Unit} (h : p.Coupled c V E p')
    (hc : cleanup.Coupled c (fun _ _ => True) E cleanup') :
    (p.tryFinally cleanup).Coupled c V E (p'.tryFinally cleanup') :=
  h.continued (continues_tryFinally cleanup) (continues_tryFinally cleanup') fun _ _ hr =>
    hc.bind fun _ _ _ => hr

theorem coupled_inTurn {ps : List (Program Ans ε α)} {ps' : List (Program Ans ε α')}
    (h : List.Forall₂ (Coupled c V E) ps ps') :
    (inTurn ps).Coupled c (List.Forall₂ V) E (inTurn ps') := by
  induction h with
  | nil => exact .nil
  | cons hp _ ih => exact hp.bind fun _ _ ha => ih.bind fun _ _ has => .cons ha has

/-- Programs side by side are coupled if each of them is. -/
theorem coupled_together {ps : List (Program Ans ε α)} {ps' : List (Program Ans ε α')}
    (h : List.Forall₂ (Coupled c V E) ps ps') (schedule : List ℕ) :
    (together schedule ps).Coupled c (List.Forall₂ V) E (together schedule ps') := by
  induction schedule generalizing ps ps' with
  | nil => exact coupled_inTurn h
  | cons i schedule ih =>
    rw [together, together]
    cases hp : ps[i]? with
    | none =>
      have hp' : ps'[i]? = none := by
        rw [List.getElem?_eq_none_iff] at hp ⊢
        exact h.length_eq ▸ hp
      rw [hp']
      exact ih h
    | some p =>
      obtain ⟨p', hp', hcoupled⟩ := exists_getElem? h hp
      rw [hp']
      cases p with
      | done r =>
        cases p' with
        | done r' => exact ih h
        | perform op' next' => exact hcoupled.elim
      | perform op next =>
        cases p' with
        | done r' => exact hcoupled.elim
        | perform op' next' =>
          exact ⟨hcoupled.1, fun a a' ha => ih (forall₂_set h i (hcoupled.2 a a' ha))⟩

/-- Programs over the effects of one kind do not see those of the other. -/
theorem Coupled.lift {c₀ : Coupling Ans₀} (h : p.Coupled c V E p') :
    (p.lift : Program (Sum.elim Ans₀ Ans) ε α).Coupled (c₀.sum c) V E p'.lift := by
  induction p generalizing p' with
  | done r =>
    cases p' with
    | done r' => exact h
    | perform op' next' => exact h.elim
  | perform op next ih =>
    cases p' with
    | done r' => exact h.elim
    | perform op' next' =>
      exact ⟨.inr h.1, fun a a' ha => ih a (h.2 a a' ha)⟩

/-- A first part whose results the observer can not tell apart. -/
theorem Coupled.andThen {W : β → β → Prop} {f : α → Program Ans ε β} {p : Program Ans ε α}
    (h : p.Coupled c Eq E p) (hf : ∀ a, (f a).Coupled c W E (f a)) :
    (p.bind f).Coupled c W E (p.bind f) :=
  h.bind fun a _ ha => ha ▸ hf a

/-- The runs of coupled programs, if their answers are alike. -/
theorem Coupled.performs {run run' : List ((op : Op) × Ans op)} {r : Except ε α}
    {r' : Except ε α'} (h : p.Coupled c V E p') (hp : p.Performs run r)
    (hp' : p'.Performs run' r') (halike : AlikeRuns c.answers run run') :
    List.Forall₂ (fun event event' => c.effects event.1 event'.1) run run' ∧ Agree V E r r' := by
  induction hp generalizing p' run' with
  | done r =>
    cases hp' with
    | done r' => exact ⟨.nil, h⟩
    | perform rest' => exact h.elim
  | perform rest ih =>
    cases hp' with
    | done r' => exact h.elim
    | perform rest' =>
      obtain ⟨heffects, hagree⟩ := ih (h.2 _ _ halike.1) rest' halike.2
      exact ⟨.cons h.1 heffects, hagree⟩

end Rules

end Program

end ChatMicroservices.EffectPrograms

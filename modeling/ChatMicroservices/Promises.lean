import Mathlib.Data.List.Basic

/-!
# Promises

A promise settles once: what is resolved or rejected after that makes no difference. A list of
promises settles together when all of them are fulfilled, or when one of them is rejected.
-/

namespace ChatMicroservices.Promises

universe u v

inductive Promise (α : Type u) (ε : Type v) where
  | pending
  | fulfilled (value : α)
  | rejected (reason : ε)
  deriving DecidableEq

namespace Promise

variable {α : Type u} {ε : Type v}

def resolve (value : α) : Promise α ε → Promise α ε
  | .pending => .fulfilled value
  | p => p

def reject (reason : ε) : Promise α ε → Promise α ε
  | .pending => .rejected reason
  | p => p

def Settled (p : Promise α ε) : Prop := p ≠ .pending

@[simp] theorem settled_fulfilled (value : α) : (fulfilled value : Promise α ε).Settled :=
  fun h => by cases h

@[simp] theorem settled_rejected (reason : ε) : (rejected reason : Promise α ε).Settled :=
  fun h => by cases h

/-- `Promise.all`, of promises that are rejected in their order. -/
def all : List (Promise α ε) → Promise (List α) ε
  | [] => .fulfilled []
  | .rejected reason :: _ => .rejected reason
  | .pending :: ps =>
    match all ps with
    | .rejected reason => .rejected reason
    | _ => .pending
  | .fulfilled value :: ps =>
    match all ps with
    | .fulfilled values => .fulfilled (value :: values)
    | .rejected reason => .rejected reason
    | .pending => .pending

@[simp] theorem resolve_pending (value : α) :
    (pending : Promise α ε).resolve value = .fulfilled value := rfl

@[simp] theorem resolve_fulfilled (value value' : α) :
    (fulfilled value' : Promise α ε).resolve value = .fulfilled value' := rfl

@[simp] theorem resolve_rejected (value : α) (reason : ε) :
    (rejected reason).resolve value = .rejected reason := rfl

@[simp] theorem reject_pending (reason : ε) :
    (pending : Promise α ε).reject reason = .rejected reason := rfl

@[simp] theorem reject_fulfilled (value : α) (reason : ε) :
    (fulfilled value).reject reason = .fulfilled value := rfl

@[simp] theorem reject_rejected (reason reason' : ε) :
    (rejected reason' : Promise α ε).reject reason = .rejected reason' := rfl

theorem all_eq_fulfilled_iff (ps : List (Promise α ε)) (values : List α) :
    all ps = .fulfilled values ↔ ps = values.map .fulfilled := by
  induction ps generalizing values with
  | nil => cases values <;> simp [all]
  | cons p ps ih =>
    cases p with
    | pending =>
      have hne : all (pending :: ps) ≠ .fulfilled values := by
        cases h : all ps <;> simp [all, h]
      cases values <;> simp [hne]
    | rejected reason => cases values <;> simp [all]
    | fulfilled value =>
      cases values with
      | nil => cases h : all ps <;> simp [all, h]
      | cons value' values =>
        cases h : all ps with
        | fulfilled rest =>
          have hrest := ih rest
          have hvalues := ih values
          simp only [all, h, fulfilled.injEq, List.cons.injEq, List.map_cons] at hvalues ⊢
          rw [hvalues]
        | pending =>
          have hvalues := ih values
          simp only [h, reduceCtorEq, false_iff] at hvalues
          simp [all, h, hvalues]
        | rejected reason =>
          have hvalues := ih values
          simp only [h, reduceCtorEq, false_iff] at hvalues
          simp [all, h, hvalues]

theorem all_settled {ps : List (Promise α ε)} (h : ∀ p ∈ ps, p.Settled) : (all ps).Settled := by
  induction ps with
  | nil => exact settled_fulfilled _
  | cons p ps ih =>
    have hrest := ih fun q hq => h q (List.mem_cons_of_mem _ hq)
    cases p with
    | pending => exact absurd rfl (h _ List.mem_cons_self)
    | rejected reason => exact settled_rejected _
    | fulfilled value =>
      unfold all
      split
      · exact settled_fulfilled _
      · exact settled_rejected _
      · rename_i hall
        exact absurd hall hrest

theorem all_rejected {ps : List (Promise α ε)} {reason : ε} (h : all ps = .rejected reason) :
    .rejected reason ∈ ps := by
  induction ps with
  | nil => cases h
  | cons p ps ih =>
    cases p with
    | pending =>
      cases hall : all ps with
      | rejected reason' =>
        simp only [all, hall, rejected.injEq] at h
        exact List.mem_cons_of_mem _ (ih (h ▸ hall))
      | _ => simp [all, hall] at h
    | rejected reason' =>
      obtain rfl : reason' = reason := by simpa [all] using h
      exact List.mem_cons_self
    | fulfilled value =>
      cases hall : all ps with
      | rejected reason' =>
        simp only [all, hall, rejected.injEq] at h
        exact List.mem_cons_of_mem _ (ih (h ▸ hall))
      | _ => simp [all, hall] at h

end Promise

end ChatMicroservices.Promises

import Mathlib.Data.List.Induction
import Mathlib.Data.Option.Basic

/-!
# Readers of ordered reports

A report says what it knows of some keys. A reader takes the reports in their order and
believes the latest one about each key. Reports that tell every change reach a reader who
starts with a snapshot, whatever was still on its way when the snapshot was taken.
-/

namespace ChatMicroservices.OrderedReports

/-- What a report says about each key, if anything. -/
abbrev Report (κ ν : Type) : Type := κ → Option ν

variable {κ ν : Type}

/-- What the latest report about a key says. -/
def latest (reports : List (Report κ ν)) (k : κ) : Option ν :=
  reports.foldl (fun known report => (report k).or known) none

/-- What a reader believes who takes unmentioned keys to have a default value. -/
def believed (default : ν) (reports : List (Report κ ν)) (k : κ) : ν :=
  (latest reports k).getD default

@[simp] theorem latest_nil (k : κ) : latest ([] : List (Report κ ν)) k = none := rfl

@[simp] theorem latest_concat (reports : List (Report κ ν)) (report : Report κ ν) (k : κ) :
    latest (reports ++ [report]) k = (report k).or (latest reports k) := by
  simp [latest]

theorem latest_append (reports reports' : List (Report κ ν)) (k : κ) :
    latest (reports ++ reports') k = (latest reports' k).or (latest reports k) := by
  induction reports' using List.reverseRecOn with
  | nil => simp
  | append_singleton reports' report ih =>
    rw [← List.append_assoc, latest_concat, latest_concat, ih, Option.or_assoc]

theorem latest_cons (report : Report κ ν) (reports : List (Report κ ν)) (k : κ) :
    latest (report :: reports) k = (latest reports k).or (report k) := by
  have happend := latest_append [report] reports k
  simpa [latest] using happend

/-- A report about a change of the truth: what it does not mention has not changed. -/
def Tells (truth truth' : κ → ν) (report : Report κ ν) : Prop :=
  ∀ k, report k = some (truth' k) ∨ (report k = none ∧ truth' k = truth k)

/-- The latest report about a key, if there is one, is true. -/
def Consistent (truth : κ → ν) (reports : List (Report κ ν)) : Prop :=
  ∀ k, latest reports k = none ∨ latest reports k = some (truth k)

theorem consistent_nil (truth : κ → ν) : Consistent truth [] := fun _ => .inl rfl

section Changes

variable {truth truth' : κ → ν} {report : Report κ ν} {reports : List (Report κ ν)}

variable (reports) in
theorem Tells.latest (h : Tells truth truth' report) (k : κ) :
    OrderedReports.latest (reports ++ [report]) k = some (truth' k) ∨
      (OrderedReports.latest (reports ++ [report]) k = OrderedReports.latest reports k ∧
        truth' k = truth k) := by
  rw [latest_concat]
  rcases h k with htold | ⟨hnone, hsame⟩
  · rw [htold]
    exact .inl rfl
  · rw [hnone]
    exact .inr ⟨rfl, hsame⟩

theorem Consistent.concat (h : Consistent truth reports) (hreport : Tells truth truth' report) :
    Consistent truth' (reports ++ [report]) := by
  intro k
  rcases hreport.latest reports k with htold | ⟨hlatest, hsame⟩
  · exact .inr htold
  · rw [hlatest, hsame]
    exact h k

/-- Reports that have been taken leave the others consistent. -/
theorem Consistent.tail (h : Consistent truth (report :: reports)) : Consistent truth reports := by
  intro k
  have hk := h k
  rw [latest_cons] at hk
  cases hlatest : OrderedReports.latest reports k with
  | none => exact .inl rfl
  | some v =>
    rw [hlatest] at hk
    simpa using hk

/-- A reader who believes the truth still does so after the report of a change. -/
theorem believed_concat {default : ν} {k : κ} (h : believed default reports k = truth k)
    (hreport : Tells truth truth' report) :
    believed default (reports ++ [report]) k = truth' k := by
  rw [believed]
  rcases hreport.latest reports k with htold | ⟨hlatest, hsame⟩
  · rw [htold]
    rfl
  · rw [hlatest, hsame]
    exact h

/-- A snapshot mentions all but the default values. Behind consistent reports it makes its
reader believe the truth. -/
theorem believed_snapshot {default : ν} {k : κ} (h : Consistent truth reports)
    (hsnapshot : report k = some (truth k) ∨ (report k = none ∧ truth k = default)) :
    believed default (reports ++ [report]) k = truth k := by
  rw [believed, latest_concat]
  rcases hsnapshot with htold | ⟨hnone, hdefault⟩
  · rw [htold]
    rfl
  · rw [hnone]
    rcases h k with hk | hk
    · rw [Option.none_or, hk, Option.getD_none, hdefault]
    · rw [Option.none_or, hk, Option.getD_some]

end Changes

end ChatMicroservices.OrderedReports

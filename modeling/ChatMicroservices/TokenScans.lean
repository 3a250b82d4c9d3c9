import Mathlib.Data.List.Basic

/-!
# Scans of a text into tokens

A scan goes through a text once, from left to right. Where a key starts it takes the key and
goes on behind it; any other unit it keeps. The rendering of a scan puts a value for each
key.
-/

namespace ChatMicroservices.TokenScans

variable {α κ : Type}

inductive Token (α κ : Type)
  | unit (a : α)
  | key (k : κ)

/-- `starts text k rest`: the text is a key followed by the rest. -/
inductive Scans (starts : List α → κ → List α → Prop) : List α → List (Token α κ) → Prop
  | done : Scans starts [] []
  | keep {a text tokens} : (∀ k rest, ¬ starts (a :: text) k rest) →
      Scans starts text tokens → Scans starts (a :: text) (.unit a :: tokens)
  | take {text k rest tokens} : starts text k rest → Scans starts rest tokens →
      Scans starts text (.key k :: tokens)

def keys (tokens : List (Token α κ)) : List κ :=
  tokens.filterMap fun
    | .unit _ => none
    | .key k => some k

def render (value : κ → List α) (tokens : List (Token α κ)) : List α :=
  tokens.flatMap fun
    | .unit a => [a]
    | .key k => value k

@[simp] theorem keys_nil : keys ([] : List (Token α κ)) = [] := rfl

@[simp] theorem keys_unit (a : α) (tokens : List (Token α κ)) :
    keys (.unit a :: tokens) = keys tokens := rfl

@[simp] theorem keys_key (k : κ) (tokens : List (Token α κ)) :
    keys (.key k :: tokens) = k :: keys tokens := rfl

@[simp] theorem render_nil (value : κ → List α) : render value [] = [] := rfl

@[simp] theorem render_unit (value : κ → List α) (a : α) (tokens : List (Token α κ)) :
    render value (.unit a :: tokens) = a :: render value tokens := rfl

@[simp] theorem render_key (value : κ → List α) (k : κ) (tokens : List (Token α κ)) :
    render value (.key k :: tokens) = value k ++ render value tokens := rfl

section
variable {starts : List α → κ → List α → Prop}

/-- At most one key starts at a place of a text, and none at its end. -/
structure Unambiguous (starts : List α → κ → List α → Prop) : Prop where
  empty : ∀ k rest, ¬ starts [] k rest
  unique : ∀ {text k rest k' rest'}, starts text k rest → starts text k' rest' →
    k = k' ∧ rest = rest'

theorem Scans.unique (hstarts : Unambiguous starts) {text : List α}
    {tokens : List (Token α κ)} (h : Scans starts text tokens) :
    ∀ {other}, Scans starts text other → other = tokens := by
  induction h with
  | done =>
    intro other h'
    cases h' with
    | done => rfl
    | take hkey _ => exact absurd hkey (hstarts.empty _ _)
  | keep hno _ ih =>
    intro other h'
    cases h' with
    | keep _ hrest => rw [ih hrest]
    | take hkey _ => exact absurd hkey (hno _ _)
  | take hkey _ ih =>
    intro other h'
    cases h' with
    | done => exact absurd hkey (hstarts.empty _ _)
    | keep hno _ => exact absurd hkey (hno _ _)
    | take hkey' hrest =>
      obtain ⟨rfl, rfl⟩ := hstarts.unique hkey hkey'
      rw [ih hrest]

end

section
variable {f g : κ → List α}

/-- The values of `g` are those of `f`, except that some are left out. -/
def Omits (f g : κ → List α) : Prop := ∀ k, g k = f k ∨ g k = []

theorem Omits.length_le (h : Omits f g) (tokens : List (Token α κ)) :
    (render g tokens).length ≤ (render f tokens).length := by
  induction tokens with
  | nil => exact Nat.le_refl _
  | cons token tokens ih =>
    cases token with
    | unit a => simpa using ih
    | key k =>
      rw [render_key, render_key, List.length_append, List.length_append]
      rcases h k with hk | hk
      · rw [hk]
        exact Nat.add_le_add_left ih _
      · rw [hk]
        exact Nat.add_le_add (Nat.zero_le _) ih

/-- The omission of a value shows in the length of the text. -/
theorem Omits.render_eq_iff (h : Omits f g) (tokens : List (Token α κ)) :
    render f tokens = render g tokens ↔ ∀ k ∈ keys tokens, f k = g k := by
  induction tokens with
  | nil => simp
  | cons token tokens ih =>
    cases token with
    | unit a => simpa using ih
    | key k =>
      rw [render_key, render_key, keys_key, List.forall_mem_cons]
      constructor
      · intro heq
        have hk : f k = g k := by
          rcases h k with hk | hk
          · exact hk.symm
          · have hlength := congrArg List.length heq
            have hle := h.length_le tokens
            rw [List.length_append, List.length_append, hk, List.length_nil] at hlength
            rw [hk, ← List.length_eq_zero_iff]
            omega
        rw [hk] at heq
        exact ⟨hk, ih.mp (List.append_cancel_left heq)⟩
      · rintro ⟨hk, hrest⟩
        rw [hk, ih.mpr hrest]

end

end ChatMicroservices.TokenScans

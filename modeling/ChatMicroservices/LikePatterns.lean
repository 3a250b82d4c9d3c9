import Mathlib.Data.List.Infix

/-!
# Patterns of `LIKE`

A pattern has a character for any text, one for any single character, and one that takes the
next character literally. Without them, a pattern between two of the first kind matches the
texts that contain it. A pattern with one of them matches a text that does not contain it.
-/

namespace ChatMicroservices.LikePatterns

variable {α : Type}

structure Metacharacters (α : Type) where
  any : α
  one : α
  escape : α
  any_ne_escape : any ≠ escape

inductive Token (α : Type)
  | any
  | one
  | char (a : α)

/-- The characters that a token stands for, with a filler for any single one. -/
def Token.sample (filler : α) : Token α → List α
  | .any => []
  | .one => [filler]
  | .char a => [a]

def sample (filler : α) (tokens : List (Token α)) : List α := tokens.flatMap (·.sample filler)

def Token.map (f : α → α) : Token α → Token α
  | .any => .any
  | .one => .one
  | .char a => .char (f a)

def IsMeta (m : Metacharacters α) (a : α) : Prop := a = m.any ∨ a = m.one ∨ a = m.escape

section

variable {m : Metacharacters α} {f : α → α}

/-- A map that leaves the metacharacters alone. -/
structure Fixes (m : Metacharacters α) (f : α → α) : Prop where
  any : ∀ a, f a = m.any ↔ a = m.any
  one : ∀ a, f a = m.one ↔ a = m.one
  escape : ∀ a, f a = m.escape ↔ a = m.escape

theorem Fixes.isMeta (hf : Fixes m f) (a : α) : IsMeta m (f a) ↔ IsMeta m a := by
  rw [IsMeta, IsMeta, hf.any, hf.one, hf.escape]

theorem sample_map (filler : α) (p : List (Token α)) :
    sample (f filler) (p.map (Token.map f)) = (sample filler p).map f := by
  induction p with
  | nil => rfl
  | cons token p ih =>
    cases token with
    | any => exact ih
    | one => exact congrArg (f filler :: ·) ih
    | char a => exact congrArg (f a :: ·) ih

theorem sample_cons (filler : α) (token : Token α) (p : List (Token α)) :
    sample filler (token :: p) = token.sample filler ++ sample filler p := rfl

/-- The sample of some tokens is not longer than a text, and the same only if the text has no
metacharacters. -/
structure Samples (m : Metacharacters α) (filler : α) (p : List (Token α)) (chars : List α) :
    Prop where
  length_le : (sample filler p).length ≤ chars.length
  plain : sample filler p = chars → ∀ a ∈ chars, ¬ IsMeta m a

theorem Samples.escaped {filler : α} {p : List (Token α)} {chars : List α}
    (h : Samples m filler p chars) (a b : α) :
    Samples m filler (.char b :: p) (a :: b :: chars) := by
  have hlength : (sample filler (.char b :: p)).length < (a :: b :: chars).length := by
    have := h.length_le
    simp only [sample, List.flatMap_cons, Token.sample, List.length_append, List.length_cons,
      List.length_nil] at this ⊢
    omega
  exact ⟨Nat.le_of_lt hlength,
    fun heq => absurd (congrArg List.length heq) (Nat.ne_of_lt hlength)⟩

end

section

variable [DecidableEq α] (m : Metacharacters α)

instance (a : α) : Decidable (IsMeta m a) := inferInstanceAs (Decidable (_ ∨ _ ∨ _))

/-- The token of a character that is not an escape. -/
def token (a : α) : Token α :=
  if a = m.any then .any else if a = m.one then .one else .char a

/-- The tokens of a pattern, which must not end with an escape. -/
def tokens : List α → Option (List (Token α))
  | [] => some []
  | [a] => if a = m.escape then none else some [token m a]
  | a :: b :: rest =>
    if a = m.escape then (tokens rest).map (.char b :: ·)
    else (tokens (b :: rest)).map (token m a :: ·)

/-- The whole text matches. -/
def Matches : List (Token α) → List α → Bool
  | [], text => text.isEmpty
  | .any :: rest, text => text.tails.any (Matches rest)
  | .one :: rest, text => text.tail?.any (Matches rest)
  | .char a :: rest, text => text.head? = some a && Matches rest text.tail

@[simp] theorem matches_nil (text : List α) : Matches [] text ↔ text = [] := by
  simp [Matches]

@[simp] theorem matches_any (rest : List (Token α)) (text : List α) :
    Matches (.any :: rest) text ↔ ∃ u v, text = u ++ v ∧ Matches rest v := by
  simp only [Matches, List.any_eq_true, List.mem_tails]
  constructor
  · rintro ⟨v, ⟨u, huv⟩, hv⟩
    exact ⟨u, v, huv.symm, hv⟩
  · rintro ⟨u, v, rfl, hv⟩
    exact ⟨v, ⟨u, rfl⟩, hv⟩

@[simp] theorem matches_one (rest : List (Token α)) (text : List α) :
    Matches (.one :: rest) text ↔ ∃ a v, text = a :: v ∧ Matches rest v := by
  cases text <;> simp [Matches]

@[simp] theorem matches_char (a : α) (rest : List (Token α)) (text : List α) :
    Matches (.char a :: rest) text ↔ ∃ v, text = a :: v ∧ Matches rest v := by
  cases text <;> simp [Matches]

theorem matches_chars (chars : List α) (rest : List (Token α)) (text : List α) :
    Matches (chars.map .char ++ rest) text ↔ ∃ v, text = chars ++ v ∧ Matches rest v := by
  induction chars generalizing text with
  | nil => simp
  | cons a chars ih => simp [ih]

/-- Literal characters between two of any text match the texts that contain them. -/
theorem matches_substring (chars text : List α) :
    Matches (.any :: (chars.map .char ++ [.any])) text ↔ chars <:+: text := by
  rw [matches_any]
  constructor
  · rintro ⟨u, v, rfl, hv⟩
    obtain ⟨w, rfl, -⟩ := (matches_chars chars _ v).mp hv
    exact ⟨u, w, by simp⟩
  · rintro ⟨u, w, rfl⟩
    refine ⟨u, chars ++ w, by simp, (matches_chars chars _ _).mpr ⟨w, rfl, ?_⟩⟩
    exact (matches_any _ _).mpr ⟨w, [], by simp⟩

theorem matches_sample (filler : α) (p : List (Token α)) : Matches p (sample filler p) := by
  induction p with
  | nil => simp [sample]
  | cons token p ih =>
    cases token with
    | any => exact (matches_any _ _).mpr ⟨[], _, rfl, ih⟩
    | one => exact (matches_one _ _).mpr ⟨filler, _, rfl, ih⟩
    | char a => exact (matches_char _ _ _).mpr ⟨_, rfl, ih⟩

variable {m}

theorem tokens_cons {a : α} (ha : a ≠ m.escape) (rest : List α) :
    tokens m (a :: rest) = (tokens m rest).map (token m a :: ·) := by
  cases rest with
  | nil => simp [tokens, ha]
  | cons b rest => simp [tokens, ha]

theorem tokens_escape (b : α) (rest : List α) :
    tokens m (m.escape :: b :: rest) = (tokens m rest).map (.char b :: ·) := by
  simp [tokens]

theorem tokens_any (rest : List α) :
    tokens m (m.any :: rest) = (tokens m rest).map (.any :: ·) := by
  simp [tokens_cons m.any_ne_escape, token]

/-- A text without metacharacters stands for itself. -/
theorem tokens_plain {chars : List α} (hchars : ∀ a ∈ chars, ¬ IsMeta m a) (rest : List α) :
    tokens m (chars ++ rest) = (tokens m rest).map (chars.map .char ++ ·) := by
  induction chars with
  | nil => simp
  | cons a chars ih =>
    obtain ⟨ha, hrest⟩ := List.forall_mem_cons.mp hchars
    simp only [IsMeta, not_or] at ha
    rw [List.cons_append, tokens_cons ha.2.2, ih hrest, Option.map_map]
    simp [token, ha, Function.comp_def]

theorem Samples.cons {filler : α} (hfiller : filler ≠ m.one) {p : List (Token α)}
    {chars : List α} (h : Samples m filler p chars) {a : α} (ha : a ≠ m.escape) :
    Samples m filler (token m a :: p) (a :: chars) := by
  by_cases hany : a = m.any
  · have hlength : (sample filler (token m a :: p)).length < (a :: chars).length := by
      rw [token, if_pos hany]
      exact Nat.lt_succ_of_le h.length_le
    exact ⟨Nat.le_of_lt hlength,
      fun heq => absurd (congrArg List.length heq) (Nat.ne_of_lt hlength)⟩
  · by_cases hone : a = m.one
    · have hsample : sample filler (token m a :: p) = filler :: sample filler p := by
        rw [token, if_neg hany, if_pos hone]
        rfl
      refine ⟨hsample ▸ Nat.succ_le_succ h.length_le, fun heq => ?_⟩
      rw [hsample, hone] at heq
      exact absurd (List.cons.inj heq).1 hfiller
    · have hsample : sample filler (token m a :: p) = a :: sample filler p := by
        rw [token, if_neg hany, if_neg hone]
        rfl
      refine ⟨hsample ▸ Nat.succ_le_succ h.length_le, fun heq => ?_⟩
      rw [hsample] at heq
      refine List.forall_mem_cons.mpr ⟨?_, h.plain (List.cons.inj heq).2⟩
      rintro (h | h | h)
      exacts [hany h, hone h, ha h]

/-- A pattern that ends with any text has tokens, of which the text before is a sample only if
it has no metacharacters. -/
theorem exists_samples {filler : α} (hfiller : filler ≠ m.one) : ∀ chars : List α, ∃ p,
    tokens m (chars ++ [m.any]) = some p ∧ Samples m filler p chars
  | [] =>
    ⟨[.any], by simp [tokens_any, tokens], Nat.le_refl _, fun _ _ ha => absurd ha (by simp)⟩
  | a :: chars => by
    by_cases ha : a = m.escape
    · subst ha
      match chars with
      | [] =>
        refine ⟨[.char m.any], by simp [tokens], Nat.le_refl _, fun heq => ?_⟩
        exact absurd (List.cons.inj heq).1 m.any_ne_escape
      | b :: chars =>
        obtain ⟨p, hp, hsamples⟩ := exists_samples hfiller chars
        refine ⟨.char b :: p, ?_, hsamples.escaped _ b⟩
        rw [List.cons_append, List.cons_append, tokens_escape, hp]
        rfl
    · obtain ⟨p, hp, hsamples⟩ := exists_samples hfiller chars
      refine ⟨token m a :: p, ?_, hsamples.cons hfiller ha⟩
      rw [List.cons_append, tokens_cons ha, hp]
      rfl

theorem mem_token_sample {filler a c : α} (hc : c ∈ (token m a).sample filler) :
    c = filler ∨ c = a := by
  unfold token at hc
  split_ifs at hc
  · cases hc
  · exact .inl (List.mem_singleton.mp hc)
  · exact .inr (List.mem_singleton.mp hc)

/-- A sample consists of fillers and characters of the pattern. -/
theorem mem_of_sample {filler c : α} : ∀ {pattern : List α} {p : List (Token α)},
    tokens m pattern = some p → c ∈ sample filler p → c = filler ∨ c ∈ pattern
  | [], p, hp, hc => by
    cases hp
    cases hc
  | a :: pattern, p, hp, hc => by
    by_cases ha : a = m.escape
    · subst ha
      match pattern with
      | [] => simp [tokens] at hp
      | b :: pattern =>
        rw [tokens_escape] at hp
        obtain ⟨p, htokens, rfl⟩ := Option.map_eq_some_iff.mp hp
        rw [sample_cons, List.mem_append] at hc
        rcases hc with hc | hc
        · exact .inr (by simp [List.mem_singleton.mp hc])
        · exact (mem_of_sample htokens hc).imp_right fun h => by simp [h]
    · rw [tokens_cons ha] at hp
      obtain ⟨p, htokens, rfl⟩ := Option.map_eq_some_iff.mp hp
      rw [sample_cons, List.mem_append] at hc
      rcases hc with hc | hc
      · exact (mem_token_sample hc).imp_right fun h => by simp [h]
      · exact (mem_of_sample htokens hc).imp_right fun h => by simp [h]

variable {f : α → α}

theorem Fixes.token (hf : Fixes m f) (a : α) :
    LikePatterns.token m (f a) = (LikePatterns.token m a).map f := by
  simp only [LikePatterns.token, hf.any, hf.one]
  split_ifs <;> rfl

theorem Fixes.tokens (hf : Fixes m f) : ∀ pattern : List α,
    LikePatterns.tokens m (pattern.map f) =
      (LikePatterns.tokens m pattern).map (List.map (Token.map f))
  | [] => rfl
  | a :: pattern => by
    by_cases ha : a = m.escape
    · subst ha
      have hescape : f m.escape = m.escape := (hf.escape _).mpr rfl
      match pattern with
      | [] => simp [LikePatterns.tokens, hescape]
      | b :: pattern =>
        rw [List.map_cons, List.map_cons, hescape, tokens_escape, tokens_escape, hf.tokens pattern]
        simp [Function.comp_def, Token.map]
    · have hne : f a ≠ m.escape := fun h => ha ((hf.escape a).mp h)
      rw [List.map_cons, tokens_cons hne, tokens_cons ha, hf.tokens pattern, hf.token]
      simp [Function.comp_def]

end

end ChatMicroservices.LikePatterns

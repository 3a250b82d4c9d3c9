import Mathlib.Data.List.DropRight

/-!
# Cookie headers

A client sends all its cookies in one header, each as a name, a sign of equality and a value,
with a separator and a blank before the next. A server that splits the header at the separators
and looks for a part that starts with a name finds the first cookie of that name, if no part of
a cookie can be taken for punctuation.
-/

namespace ChatMicroservices.CookieHeaders

variable {α : Type}

structure Cookie (α : Type) where
  name : List α
  value : List α

/-- The punctuation of a header, and the characters that are stripped from its parts. -/
structure Punctuation (α : Type) where
  separator : α
  space : α
  equals : α
  blank : α → Bool
  space_ne : space ≠ separator
  space_blank : blank space = true

namespace Punctuation

variable (m : Punctuation α)

def pair (c : Cookie α) : List α := c.name ++ m.equals :: c.value

/-- The header for some cookies. -/
def render : List (Cookie α) → List α
  | [] => []
  | c :: cs => m.pair c ++ cs.flatMap fun c => m.separator :: m.space :: m.pair c

def strip (s : List α) : List α := (s.dropWhile m.blank).rdropWhile m.blank

variable [DecidableEq α]

/-- The parts of a header. -/
def parts (header : List α) : List (List α) := (header.splitOn m.separator).map m.strip

/-- The value of the first part that starts with the name. -/
def find (header name : List α) : Option (List α) :=
  ((m.parts header).find? (name ++ [m.equals]).isPrefixOf).map (List.drop (name.length + 1))

/-- No character of the cookie is taken for punctuation, and nothing is stripped from its name
or from the whole of it. -/
structure Proper (c : Cookie α) : Prop where
  separator : m.separator ∉ m.pair c
  equals : m.equals ∉ c.name
  name : m.strip c.name = c.name
  strip : m.strip (m.pair c) = m.pair c

variable {m}

omit [DecidableEq α] in
theorem strip_space (s : List α) : m.strip (m.space :: s) = m.strip s := by
  rw [strip, List.dropWhile_cons_of_pos m.space_blank, strip]

theorem splitOn_render {c : Cookie α} {cs : List (Cookie α)} (hc : m.Proper c)
    (hcs : ∀ c ∈ cs, m.Proper c) : (m.render (c :: cs)).splitOn m.separator =
      m.pair c :: cs.map fun c => m.space :: m.pair c := by
  rw [render]
  generalize hfirst : m.pair c = first
  have hnotin : m.separator ∉ first := hfirst ▸ hc.separator
  clear hfirst
  induction cs generalizing first with
  | nil =>
    rw [List.flatMap_nil, List.append_nil]
    exact List.splitOn_eq_singleton hnotin
  | cons c' cs ih =>
    have hrest : m.separator ∉ m.space :: m.pair c' := by
      rw [List.mem_cons, not_or]
      exact ⟨m.space_ne.symm, (hcs c' List.mem_cons_self).separator⟩
    rw [List.flatMap_cons, List.map_cons, List.cons_append, List.splitOn_append_cons_of_beq _ _
      (beq_self_eq_true m.separator), List.splitOn_eq_singleton hnotin]
    rw [ih (fun c hc => hcs c (List.mem_cons_of_mem _ hc)) _ hrest]
    rfl

/-- The parts of a header are its cookies. -/
theorem parts_render {c : Cookie α} {cs : List (Cookie α)} (h : ∀ c' ∈ c :: cs, m.Proper c') :
    m.parts (m.render (c :: cs)) = (c :: cs).map m.pair := by
  have hc : m.Proper c := h c List.mem_cons_self
  have hcs : ∀ c' ∈ cs, m.Proper c' := fun c' hc' => h c' (List.mem_cons_of_mem _ hc')
  rw [parts, splitOn_render hc hcs, List.map_cons, List.map_cons, hc.strip, List.map_map]
  congr 1
  apply List.map_congr_left
  intro c' hc'
  rw [Function.comp_apply, strip_space, (hcs c' hc').strip]

omit [DecidableEq α] in
theorem append_equals_inj {e : α} {s s' t t' : List α} (hs : e ∉ s) (hs' : e ∉ s')
    (h : s ++ e :: t = s' ++ e :: t') : s = s' ∧ t = t' := by
  induction s generalizing s' with
  | nil =>
    cases s' with
    | nil => exact ⟨rfl, (List.cons.inj h).2⟩
    | cons u s' => exact absurd ((List.cons.inj h).1 ▸ List.mem_cons_self) hs'
  | cons u s ih =>
    cases s' with
    | nil => exact absurd ((List.cons.inj h).1 ▸ List.mem_cons_self) hs
    | cons u' s' =>
      obtain ⟨rfl, htail⟩ := List.cons.inj h
      obtain ⟨rfl, rfl⟩ := ih (fun hmem => hs (List.mem_cons_of_mem _ hmem))
        (fun hmem => hs' (List.mem_cons_of_mem _ hmem)) htail
      exact ⟨rfl, rfl⟩

/-- A cookie starts with a name when that is its own. -/
theorem isPrefixOf_pair {c : Cookie α} (hc : m.Proper c) {name : List α}
    (hname : m.equals ∉ name) :
    (name ++ [m.equals]).isPrefixOf (m.pair c) = decide (c.name = name) := by
  rw [Bool.eq_iff_iff, List.isPrefixOf_iff_prefix, decide_eq_true_eq]
  constructor
  · rintro ⟨rest, hrest⟩
    rw [List.append_assoc] at hrest
    exact (append_equals_inj hname hc.equals hrest).1.symm
  · rintro rfl
    exact ⟨c.value, by simp [pair]⟩

omit [DecidableEq α] in
theorem drop_pair {c : Cookie α} {name : List α} (h : c.name = name) :
    (m.pair c).drop (name.length + 1) = c.value := by
  rw [pair, h, List.drop_append, List.drop_of_length_le (by omega), Nat.add_sub_cancel_left]
  rfl

/-- The first cookie of a name is found, and nothing else. -/
theorem find_render {cs : List (Cookie α)} (h : ∀ c ∈ cs, m.Proper c) {name : List α}
    (hname : m.equals ∉ name) :
    m.find (m.render cs) name = (cs.find? fun c => c.name = name).map Cookie.value := by
  cases cs with
  | nil => simp [find, render, parts, strip]
  | cons c cs =>
    rw [find, parts_render h, List.find?_map]
    have hfound : ∀ cs : List (Cookie α), (∀ c ∈ cs, m.Proper c) →
        cs.find? ((name ++ [m.equals]).isPrefixOf ∘ m.pair) =
          cs.find? fun c => c.name = name := by
      intro cs hcs
      induction cs with
      | nil => rfl
      | cons c cs ih =>
        have hc := isPrefixOf_pair (hcs c List.mem_cons_self) hname
        rw [List.find?_cons, List.find?_cons, Function.comp_apply, hc,
          ih fun c hc => hcs c (List.mem_cons_of_mem _ hc)]
    rw [hfound _ h, Option.map_map]
    cases hc : (c :: cs).find? fun c => c.name = name with
    | none => rfl
    | some c' =>
      have hname' : c'.name = name := by simpa using List.find?_some hc
      exact congrArg some (drop_pair hname')

end Punctuation

end ChatMicroservices.CookieHeaders

import ChatMicroservices.EmailTemplates
import ChatMicroservices.TokenScans

/-!
# Template rendering as a substitution

Rendering goes through the template once and replaces the leftmost match of `{{word}}` each
time. The value of a word is read as a property of the variables, so a word that is the name
of an inherited property is replaced by the text of that property.
-/

namespace ChatMicroservices.TemplateRendering
open JavaScriptValues JavaScriptOperators EmailTemplates TokenScans

def opening : JsString := [0x7B, 0x7B]
def closing : JsString := [0x7D, 0x7D]

/-- The text begins with a match of `{{word}}`. -/
def Begins (text word rest : JsString) : Prop :=
  word ≠ [] ∧ (∀ u ∈ word, isWord u) ∧ text = opening ++ word ++ closing ++ rest

private theorem takeWhile_word {word : JsString} (hword : ∀ u ∈ word, isWord u)
    (rest : JsString) : (word ++ closing ++ rest).takeWhile isWord = word := by
  rw [List.append_assoc, List.takeWhile_append_of_pos hword]
  have hclosing : (closing ++ rest).takeWhile isWord = [] := by
    simp only [closing, List.cons_append, List.takeWhile_cons]
    rw [if_neg (by decide)]
  rw [hclosing, List.append_nil]

private theorem dropWhile_word {word : JsString} (hword : ∀ u ∈ word, isWord u)
    (rest : JsString) : (word ++ closing ++ rest).dropWhile isWord = closing ++ rest := by
  rw [List.append_assoc, List.dropWhile_append_of_pos hword]
  simp only [closing, List.cons_append, List.dropWhile_cons]
  rw [if_neg (by decide)]

theorem Begins.placeholder {text word rest : JsString} (h : Begins text word rest) :
    placeholder text = some (word, rest) := by
  obtain ⟨hne, hword, rfl⟩ := h
  obtain ⟨c, key, rfl⟩ := List.exists_cons_of_ne_nil hne
  have htake := takeWhile_word hword rest
  have hdrop := dropWhile_word hword rest
  simp only [List.append_assoc] at htake hdrop ⊢
  simp only [opening, List.cons_append, List.nil_append] at htake hdrop ⊢
  rw [EmailTemplates.placeholder, if_pos ⟨rfl, rfl⟩, htake, hdrop]
  simp [closing]

theorem begins_of_placeholder {text word rest : JsString}
    (h : placeholder text = some (word, rest)) : Begins text word rest := by
  unfold placeholder at h
  split at h
  next u v text =>
    split_ifs at h with hopen
    split at h
    next c key x y rest' htake hdrop =>
      split_ifs at h with hclose
      obtain ⟨rfl, rfl⟩ := hopen
      obtain ⟨rfl, rfl⟩ := hclose
      obtain ⟨rfl, rfl⟩ : c :: key = word ∧ rest' = rest := by simpa using h
      refine ⟨List.cons_ne_nil _ _, fun u hu => ?_, ?_⟩
      · rw [← htake] at hu
        exact List.mem_takeWhile_imp hu
      · rw [← List.takeWhile_append_dropWhile (p := isWord) (l := text), htake, hdrop]
        simp [opening, closing]
    next => cases h
  next => cases h

theorem begins_unambiguous : Unambiguous Begins where
  empty word rest := by
    rintro ⟨-, -, h⟩
    simp [opening] at h
  unique h h' := by
    have heq := h.placeholder.symm.trans h'.placeholder
    simpa using heq

theorem Begins.length_lt {text word rest : JsString} (h : Begins text word rest) :
    rest.length < text.length := by
  obtain ⟨-, -, rfl⟩ := h
  simp only [List.length_append, opening, List.length_cons]
  omega

/-- A map of texts, as the variables of a template. -/
def varsOf (texts : List (JsString × JsString)) : Vars :=
  texts.map fun entry => (entry.1, .str entry.2)

/-- The value of the own entry for a word. -/
def ownText (texts : List (JsString × JsString)) (word : JsString) : Option JsString :=
  (texts.find? fun entry => entry.1 = word).map (·.2)

/-- The text that the code puts for a word. -/
def valueText (texts : List (JsString × JsString)) (word : JsString) : JsString :=
  ((ownText texts word).or (inheritedText word)).getD []

theorem lookup_varsOf (texts : List (JsString × JsString)) (word : JsString) :
    lookup word (varsOf texts) = (ownText texts word).map .str := by
  induction texts with
  | nil => rfl
  | cons entry texts ih =>
    by_cases hkey : entry.1 = word
    · simp [varsOf, ownText, lookup, hkey]
    · simpa [varsOf, ownText, lookup, hkey] using ih

theorem inserted_varsOf (texts : List (JsString × JsString)) (word : JsString) :
    inserted (varsOf texts) word = .ok (valueText texts word) := by
  unfold inserted valueText
  rw [lookup_varsOf]
  cases ownText texts word with
  | none => rfl
  | some text => simp [toText]

/-- Rendering puts the values of the words into the scan of the template. -/
theorem replace_scan (texts : List (JsString × JsString)) (fuel : ℕ) (text : JsString)
    (hfuel : text.length ≤ fuel) : ∃ tokens, Scans Begins text tokens ∧
      replace (varsOf texts) fuel text = .ok (render (valueText texts) tokens) := by
  induction fuel generalizing text with
  | zero =>
    obtain rfl := List.length_eq_zero_iff.mp (Nat.le_zero.mp hfuel)
    exact ⟨[], .done, rfl⟩
  | succ fuel ih =>
    cases text with
    | nil => exact ⟨[], .done, rfl⟩
    | cons u text =>
      rw [List.length_cons] at hfuel
      cases hplaceholder : placeholder (u :: text) with
      | none =>
        obtain ⟨tokens, hscan, hreplace⟩ := ih text (by omega)
        have hkeep : ∀ word rest, ¬ Begins (u :: text) word rest := fun word rest hbegins => by
          rw [hbegins.placeholder] at hplaceholder
          cases hplaceholder
        refine ⟨.unit u :: tokens, .keep hkeep hscan, ?_⟩
        simp only [replace, hplaceholder, hreplace, render_unit]
        rfl
      | some found =>
        have hbegins := begins_of_placeholder hplaceholder
        have hlength := hbegins.length_lt
        rw [List.length_cons] at hlength
        obtain ⟨tokens, hscan, hreplace⟩ := ih found.2 (by omega)
        refine ⟨.key found.1 :: tokens, .take hbegins hscan, ?_⟩
        simp only [replace, hplaceholder, hreplace, inserted_varsOf, render_key]
        rfl

/-- The own value for a word, or nothing. -/
def substituted (texts : List (JsString × JsString)) (word : JsString) : JsString :=
  (ownText texts word).getD []

theorem inheritedText_ne_nil {word text : JsString} (h : inheritedText word = some text) :
    text ≠ [] := by
  unfold inheritedText at h
  split_ifs at h <;> cases h
  · decide
  · decide
  · exact List.append_ne_nil_of_right_ne_nil _ (by decide)

theorem valueText_eq_iff (texts : List (JsString × JsString)) (word : JsString) :
    valueText texts word = substituted texts word ↔
      (ownText texts word).isSome ∨ inheritedText word = none := by
  unfold valueText substituted
  cases ownText texts word with
  | some text => simp
  | none =>
    cases hinherited : inheritedText word with
    | none => simp
    | some text => simpa using inheritedText_ne_nil hinherited

theorem substituted_omits (texts : List (JsString × JsString)) :
    Omits (valueText texts) (substituted texts) := by
  intro word
  unfold valueText substituted
  cases ownText texts word with
  | some text => exact .inl rfl
  | none => exact .inr rfl

/-- Every template has one scan, and rendering puts the own values of its words into it just
when no word of it without an own value is the name of an inherited property. -/
theorem renderTemplate_substitutes_iff (tpl : JsString) (texts : List (JsString × JsString)) :
    ∃ tokens, Scans Begins tpl tokens ∧ (∀ other, Scans Begins tpl other → other = tokens) ∧
      (renderTemplate tpl (varsOf texts) = .ok (render (substituted texts) tokens) ↔
        ∀ word ∈ keys tokens, (ownText texts word).isSome ∨ inheritedText word = none) := by
  obtain ⟨tokens, hscan, hreplace⟩ := replace_scan texts tpl.length tpl (Nat.le_refl _)
  refine ⟨tokens, hscan, fun other hother => hscan.unique begins_unambiguous hother, ?_⟩
  rw [renderTemplate, hreplace, Except.ok.injEq, (substituted_omits texts).render_eq_iff]
  exact forall₂_congr fun word _ => valueText_eq_iff texts word

/-- `{{constructor}}` has no own value in an empty map. -/
theorem renderTemplate_inherits : ∃ tokens,
    Scans Begins (js "\x7b\x7bconstructor\x7d\x7d") tokens ∧
      renderTemplate (js "\x7b\x7bconstructor\x7d\x7d") (varsOf []) ≠
        .ok (render (substituted []) tokens) := by
  have hbegins : Begins (js "\x7b\x7bconstructor\x7d\x7d") (js "constructor") [] :=
    ⟨by decide, List.all_eq_true.mp (by decide), by decide⟩
  exact ⟨[.key (js "constructor")], .take hbegins .done, by decide +kernel⟩

end ChatMicroservices.TemplateRendering

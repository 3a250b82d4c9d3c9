import ChatMicroservices.JavaScriptOperators
import ChatMicroservices.JsonParsing

/-!
# Texts in the database

pg sends a text as UTF-8. A surrogate outside a pair has no bytes there and is stored as
U+FFFD, so a column may hold another text than the entity. The parser of JSON tells the two
apart inside strings only: an envelope stays an envelope.
-/

namespace ChatMicroservices.StoredTexts
open JavaScriptValues JavaScriptOperators JSON

def isHigh (u : UInt16) : Bool := 0xD800 ≤ u ∧ u ≤ 0xDBFF
def isLow (u : UInt16) : Bool := 0xDC00 ≤ u ∧ u ≤ 0xDFFF

/-- A lone surrogate is sent to the database as the replacement character. -/
def encoded : JsString → JsString
  | [u] => if isHigh u ∨ isLow u then [0xFFFD] else [u]
  | c => c

/-- The text that a column holds for `s`. -/
def toWellFormed (s : JsString) : JsString := (codePoints s).flatMap encoded

/-- A `varchar(255)` column holds at most 255 characters, and no text holds U+0000. -/
def Fits (s : JsString) : Prop := 0 ∉ s ∧ (codePoints s).length ≤ 255

instance (s : JsString) : Decidable (Fits s) := inferInstanceAs (Decidable (_ ∧ _))

/-- The error of a statement that stores the text in a `text` column. -/
def textError (s : JsString) : Option JsError :=
  if 0 ∈ s then some (.failure "invalid byte sequence for encoding \"UTF8\": 0x00") else none

/-- The error of a statement that stores the text in a `varchar(255)` column. -/
def varcharError (s : JsString) : Option JsError :=
  (textError s).or (if 255 < (codePoints s).length then
    some (.failure "value too long for type character varying(255)") else none)

theorem varcharError_eq_none {s : JsString} : varcharError s = none ↔ Fits s := by
  simp [varcharError, textError, Fits]

def IsSurrogate (u : UInt16) : Prop := isHigh u ∨ isLow u

instance (u : UInt16) : Decidable (IsSurrogate u) := inferInstanceAs (Decidable (_ ∨ _))

/-- The unit `v` stands in the column where the text has `u`. -/
def Blur (u v : UInt16) : Prop := v = u ∨ (IsSurrogate u ∧ v = 0xFFFD)

abbrev Blurred : JsString → JsString → Prop := List.Forall₂ Blur

theorem blur_refl (u : UInt16) : Blur u u := .inl rfl

theorem blurred_refl (s : JsString) : Blurred s s := List.forall₂_same.mpr fun u _ => blur_refl u

theorem encoded_blurred (u : UInt16) : Blurred [u] (encoded [u]) := by
  simp only [encoded]
  split
  · rename_i hu
    exact .cons (.inr ⟨hu, rfl⟩) .nil
  · exact blurred_refl [u]

theorem toWellFormed_blurred (s : JsString) : Blurred s (toWellFormed s) := by
  unfold toWellFormed
  induction s using codePoints.induct with
  | case1 => exact .nil
  | case2 u => simpa [codePoints] using encoded_blurred u
  | case3 u v rest hpair ih =>
    rw [codePoints, if_pos hpair, List.flatMap_cons]
    exact List.rel_append (blurred_refl [u, v]) ih
  | case4 u v rest hpair ih =>
    rw [codePoints, if_neg hpair, List.flatMap_cons]
    exact List.rel_append (encoded_blurred u) ih

theorem length_toWellFormed (s : JsString) : (toWellFormed s).length = s.length :=
  (toWellFormed_blurred s).length_eq.symm

/-- The function does not tell a surrogate from U+FFFD. -/
def Blind {α : Type} (f : UInt16 → α) : Prop := ∀ u, IsSurrogate u → f u = f 0xFFFD

theorem Blind.eq {α : Type} {f : UInt16 → α} (hf : Blind f) {u v : UInt16} (h : Blur u v) :
    f v = f u := by
  rcases h with rfl | ⟨hu, rfl⟩
  · rfl
  · exact (hf u hu).symm

theorem surrogate_range {u : UInt16} (h : IsSurrogate u) :
    0xD800 ≤ u.toNat ∧ u.toNat ≤ 0xDFFF := by
  simp only [IsSurrogate, isHigh, isLow, UInt16.le_iff_toNat_le, decide_eq_true_eq] at h
  rcases h with h | h
  · exact ⟨h.1, le_trans h.2 (by decide)⟩
  · exact ⟨le_trans (by decide) h.1, h.2⟩

theorem ne_of_surrogate {u c : UInt16} (h : IsSurrogate u)
    (hc : c.toNat < 0xD800 ∨ 0xDFFF < c.toNat) : u ≠ c := by
  rintro rfl
  have hrange := surrogate_range h
  omega

theorem not_le_of_surrogate {u b : UInt16} (h : IsSurrogate u) (hb : b.toNat < 0xD800) :
    ¬ u ≤ b := by
  have hrange := surrogate_range h
  rw [UInt16.le_iff_toNat_le]
  omega

theorem blind_eq {c : UInt16} (hc : c.toNat < 0xD800) : Blind fun u => decide (u = c) := by
  intro u hu
  have hne : (0xFFFD : UInt16) ≠ c := by
    rintro rfl
    exact absurd hc (by decide)
  simp [ne_of_surrogate hu (.inl hc), hne]

/-- Both units are the same character of the grammar, or neither is. -/
theorem Blur.eq_iff {u v c : UInt16} (h : Blur u v) (hc : c.toNat < 0xD800) : v = c ↔ u = c := by
  simpa using (blind_eq hc).eq h

theorem blind_control : Blind fun u => decide (u < 0x20) := by
  intro u hu
  have hnot : ¬ u < 0x20 := fun h =>
    not_le_of_surrogate hu (b := 0x20) (by decide) (UInt16.le_of_lt h)
  simp [hnot]

theorem blind_isSpace : Blind isSpace := by
  intro u hu
  have hne : ∀ c : UInt16, c.toNat < 0xD800 ∨ 0xDFFF < c.toNat → u ≠ c := fun c hc =>
    ne_of_surrogate hu hc
  have hle : ∀ b : UInt16, b.toNat < 0xD800 → ¬ u ≤ b := fun b hb => not_le_of_surrogate hu hb
  simp [isSpace, hne, hle]

theorem blind_isBlank : Blind isBlank := by
  intro u hu
  have hne : ∀ c : UInt16, c.toNat < 0xD800 → u ≠ c := fun c hc => ne_of_surrogate hu (.inl hc)
  simp [isBlank, hne]

theorem blind_isDigit : Blind isDigit := by
  intro u hu
  simp [isDigit, not_le_of_surrogate hu]

theorem blind_hexDigit : Blind hexDigit := by
  intro u hu
  simp [hexDigit, isDigit, not_le_of_surrogate hu]

theorem blind_simpleEscape : Blind simpleEscape := by
  intro u hu
  have hne : ∀ c : UInt16, c.toNat < 0xD800 → u ≠ c := fun c hc => ne_of_surrogate hu (.inl hc)
  simp [simpleEscape, hne]

/-- A text without surrogates and U+FFFD, which is stored as it is and no other text as it. -/
def Plain (s : JsString) : Prop := ∀ u ∈ s, u.toNat < 0xD800

instance : DecidablePred Plain := List.decidableBAll fun u : UInt16 => u.toNat < 0xD800

theorem eq_iff_of_plain {s t : JsString} (h : Blurred s t) {key : JsString}
    (hkey : Plain key) : t = key ↔ s = key := by
  induction h generalizing key with
  | nil => rfl
  | cons hu _ ih =>
    cases key with
    | nil => simp
    | cons c key =>
      obtain ⟨hc, hkey⟩ := List.forall_mem_cons.mp hkey
      rw [List.cons.injEq, List.cons.injEq, hu.eq_iff hc, ih hkey]

theorem isPrefixOf_blurred {s t : JsString} (h : Blurred s t) (word : JsString)
    (hword : Plain word) : word.isPrefixOf t = word.isPrefixOf s := by
  induction word generalizing s t with
  | nil => rfl
  | cons c word ih =>
    obtain ⟨hc, hword⟩ := List.forall_mem_cons.mp hword
    cases h with
    | nil => rfl
    | cons hu hrest =>
      have hhead := hu.eq_iff hc
      simp only [List.isPrefixOf, ih hrest hword, beq_eq_decide, eq_comm (a := c), hhead]

/-- Where a class of units ends, it ends in both texts. -/
theorem takeWhile_blurred {s t : JsString} (h : Blurred s t) {p : UInt16 → Bool} (hp : Blind p)
    (hfalse : p 0xFFFD = false) : t.takeWhile p = s.takeWhile p := by
  induction h with
  | nil => rfl
  | @cons u v s t hu _ ih =>
    rw [List.takeWhile_cons, List.takeWhile_cons, hp.eq hu, ih]
    cases hpu : p u with
    | false => rfl
    | true =>
      rcases hu with rfl | ⟨hsurrogate, -⟩
      · rfl
      · rw [hp u hsurrogate, hfalse] at hpu
        cases hpu

theorem dropWhile_blurred {s t : JsString} (h : Blurred s t) {p : UInt16 → Bool} (hp : Blind p) :
    Blurred (s.dropWhile p) (t.dropWhile p) := by
  induction h with
  | nil => exact .nil
  | @cons u v s t hu hrest ih =>
    rw [List.dropWhile_cons, List.dropWhile_cons, hp.eq hu]
    split
    · exact ih
    · exact .cons hu hrest

/-- Where one reader succeeds the other one does, with a related value and rest. -/
def Follows {α β : Type} (R : α → β → Prop) (o : Option (α × JsString))
    (o' : Option (β × JsString)) : Prop :=
  ∀ r, o = some r → ∃ r', o' = some r' ∧ R r.1 r'.1 ∧ Blurred r.2 r'.2

section Readers

variable {α β γ δ : Type} {R : α → β → Prop} {Q : γ → δ → Prop}
  {o : Option (α × JsString)} {o' : Option (β × JsString)}

theorem follows_none : Follows R none o' := fun _ h => (by cases h)

theorem follows_some {a : α} {b : β} {s t : JsString} (h : R a b) (hst : Blurred s t) :
    Follows R (some (a, s)) (some (b, t)) := by
  rintro r hr
  obtain rfl := Option.some.inj hr
  exact ⟨(b, t), rfl, h, hst⟩

theorem Follows.bind (h : Follows R o o') {f : α × JsString → Option (γ × JsString)}
    {g : β × JsString → Option (δ × JsString)}
    (hfg : ∀ a b s t, R a b → Blurred s t → Follows Q (f (a, s)) (g (b, t))) :
    Follows Q (o.bind f) (o'.bind g) := by
  intro r hr
  obtain ⟨⟨a, s⟩, ho, hf⟩ := Option.bind_eq_some_iff.mp hr
  obtain ⟨⟨b, t⟩, ho', hab, hst⟩ := h _ ho
  obtain ⟨r', hg, hr'⟩ := hfg a b s t hab hst r hf
  exact ⟨r', by rw [ho', Option.bind_some, hg], hr'⟩

theorem follows_bind_eq {ε : Type} (x : Option ε) {f : ε → Option (α × JsString)}
    {g : ε → Option (β × JsString)} (h : ∀ e, Follows R (f e) (g e)) :
    Follows R (x.bind f) (x.bind g) := by
  cases x with
  | none => exact follows_none
  | some e => exact h e

theorem Follows.map (h : Follows R o o') {f : α → γ} {g : β → δ}
    (hfg : ∀ a b, R a b → Q (f a) (g b)) :
    Follows Q (o.map fun r => (f r.1, r.2)) (o'.map fun r => (g r.1, r.2)) := by
  intro r hr
  obtain ⟨⟨a, s⟩, ho, rfl⟩ := Option.map_eq_some_iff.mp hr
  obtain ⟨⟨b, t⟩, ho', hab, hst⟩ := h _ ho
  exact ⟨(g b, t), by rw [ho', Option.map_some], hfg a b hab, hst⟩

end Readers

theorem fractionPart_follows {s t : JsString} (h : Blurred s t) :
    Follows Eq (fractionPart s) (fractionPart t) := by
  cases h with
  | nil => exact follows_some rfl .nil
  | cons hu hrest =>
    simp only [fractionPart, hu.eq_iff (c := 0x2E) (by decide),
      takeWhile_blurred hrest blind_isDigit (by decide)]
    split
    · split
      · exact follows_none
      · exact follows_some rfl (dropWhile_blurred hrest blind_isDigit)
    · exact follows_some rfl (.cons hu hrest)

theorem exponentDigits_follows (negative : Bool) {s t : JsString} (h : Blurred s t) :
    Follows Eq (exponentDigits negative s) (exponentDigits negative t) := by
  simp only [exponentDigits, takeWhile_blurred h blind_isDigit (by decide)]
  split
  · exact follows_none
  · exact follows_some rfl (dropWhile_blurred h blind_isDigit)

theorem exponentPart_follows {s t : JsString} (h : Blurred s t) :
    Follows Eq (exponentPart s) (exponentPart t) := by
  cases h with
  | nil => exact follows_some rfl .nil
  | cons hu hrest =>
    simp only [exponentPart, hu.eq_iff (c := 0x65) (by decide), hu.eq_iff (c := 0x45) (by decide)]
    split
    · cases hrest with
      | nil => exact follows_none
      | cons hsign hrest =>
        simp only [hsign.eq_iff (c := 0x2D) (by decide), hsign.eq_iff (c := 0x2B) (by decide)]
        split
        · exact exponentDigits_follows true hrest
        · split
          · exact exponentDigits_follows false hrest
          · exact exponentDigits_follows false (.cons hsign hrest)
    · exact follows_some rfl (.cons hu hrest)

theorem unsigned_follows (negative : Bool) {s t : JsString} (h : Blurred s t) :
    Follows Eq (unsigned negative s) (unsigned negative t) := by
  simp only [unsigned, takeWhile_blurred h blind_isDigit (by decide)]
  split
  · exact follows_none
  · refine (fractionPart_follows (dropWhile_blurred h blind_isDigit)).bind ?_
    rintro fraction _ s t rfl hst
    refine (exponentPart_follows hst).bind ?_
    rintro exponent _ s t rfl hst
    exact follows_some rfl hst

theorem keyword_follows {s t : JsString} (h : Blurred s t) :
    Follows Eq (keyword s) (keyword t) := by
  simp only [keyword, isPrefixOf_blurred h (js "null") (by decide),
    isPrefixOf_blurred h (js "true") (by decide), isPrefixOf_blurred h (js "false") (by decide)]
  split
  · exact follows_some rfl (List.forall₂_drop 4 h)
  · split
    · exact follows_some rfl (List.forall₂_drop 4 h)
    · split
      · exact follows_some rfl (List.forall₂_drop 5 h)
      · exact follows_none

/-- The escapes of a string: four hexadecimal digits after `u`, one character otherwise. -/
theorem stringBody_escape (e : UInt16) (rest : JsString) : stringBody (0x5C :: e :: rest) =
    if e = 0x75 then
      match rest with
      | a :: b :: c :: d :: rest => (unicodeEscape a b c d).bind fun x =>
        (stringBody rest).map fun r => (x :: r.1, r.2)
      | _ => none
    else (simpleEscape e).bind fun x => (stringBody rest).map fun r => (x :: r.1, r.2) := by
  rw [stringBody.eq_def]
  have hquote : ¬ (0x5C : UInt16) = 0x22 := by decide
  simp only [if_neg hquote, if_true]
  by_cases he : e = 0x75
  · subst he
    have hnone : simpleEscape 0x75 = none := by decide
    rcases rest with _ | ⟨a, _ | ⟨b, _ | ⟨c, _ | ⟨d, rest⟩⟩⟩⟩
    · simp [hnone]
    · simp [hnone]
    · simp [hnone]
    · simp [hnone]
    · simp only [if_true]
      cases unicodeEscape a b c d <;> cases stringBody rest <;> rfl
  · simp only [if_neg he]
    have hsplit : ∀ s : JsString, (simpleEscape e).bind (fun x => (stringBody s).bind fun r =>
        some (x :: r.1, r.2)) =
          (simpleEscape e).bind fun x => (stringBody s).map fun r => (x :: r.1, r.2) := by
      intro s
      cases stringBody s <;> rfl
    rcases rest with _ | ⟨a, _ | ⟨b, _ | ⟨c, _ | ⟨d, rest⟩⟩⟩⟩
    · exact hsplit _
    · exact hsplit _
    · exact hsplit _
    · exact hsplit _
    · simp only [if_neg he]
      exact hsplit _

/-- What is no escape: the closing quote, a control character, or a character of the string. -/
theorem stringBody_unit {u : UInt16} (hslash : u ≠ 0x5C) (rest : JsString) :
    stringBody (u :: rest) =
      if u = 0x22 then some ([], rest)
      else if u < 0x20 then none else (stringBody rest).map fun r => (u :: r.1, r.2) := by
  rw [stringBody.eq_def]
  simp only [if_neg hslash]
  cases stringBody rest <;> rfl

theorem stringBody_follows {s t : JsString} (h : Blurred s t) :
    Follows Blurred (stringBody s) (stringBody t) := by
  induction hn : s.length using Nat.strong_induction_on generalizing s t with
  | _ n ih =>
    cases h with
    | nil => exact follows_none
    | @cons u v s t hu hrest =>
      by_cases hslash : u = 0x5C
      · obtain rfl : v = 0x5C := (hu.eq_iff (by decide)).mpr hslash
        subst hslash
        cases hrest with
        | nil => exact follows_none
        | @cons e e' s t he hrest =>
          rw [stringBody_escape, stringBody_escape]
          simp only [he.eq_iff (c := 0x75) (by decide), blind_simpleEscape.eq he]
          split
          · rcases hrest with _ | ⟨ha, _ | ⟨hb, _ | ⟨hc, _ | ⟨hd, hrest⟩⟩⟩⟩
            · exact follows_none
            · exact follows_none
            · exact follows_none
            · exact follows_none
            · simp only [unicodeEscape, blind_hexDigit.eq ha, blind_hexDigit.eq hb,
                blind_hexDigit.eq hc, blind_hexDigit.eq hd]
              refine follows_bind_eq _ fun x => (ih _ ?_ hrest rfl).map fun _ _ hbody =>
                .cons (blur_refl x) hbody
              rw [← hn]
              simp only [List.length_cons]
              omega
          · refine follows_bind_eq _ fun x => (ih s.length ?_ hrest rfl).map fun _ _ hbody =>
              .cons (blur_refl x) hbody
            rw [← hn, List.length_cons, List.length_cons]
            omega
      · rw [stringBody_unit hslash, stringBody_unit (mt (hu.eq_iff (by decide)).mp hslash)]
        have hcontrol : v < 0x20 ↔ u < 0x20 := by simpa using blind_control.eq hu
        simp only [hu.eq_iff (c := 0x22) (by decide), hcontrol]
        split
        · exact follows_some .nil hrest
        · split
          · exact follows_none
          · refine (ih s.length ?_ hrest rfl).map fun _ _ hbody => .cons hu hbody
            rw [← hn, List.length_cons]
            omega

/-- The kind of a value; a boolean is of its own kind. -/
def kind : Json → Json
  | .null => .null
  | .bool b => .bool b
  | .num _ => .num (.finite 0)
  | .str _ => .str []
  | .arr _ => .arr []
  | .obj _ => .obj []

/-- Under every key without surrogates both objects have a value of the same kind. -/
def SameMembers (fields fields' : List (JsString × Json)) : Prop :=
  ∀ key, Plain key → (lookup key fields').map kind = (lookup key fields).map kind

/-- The values are of the same kind, and objects have the same members. -/
inductive Alike : Json → Json → Prop
  | null : Alike .null .null
  | bool (b : Bool) : Alike (.bool b) (.bool b)
  | num (n : Number) : Alike (.num n) (.num n)
  | str (s t : JsString) : Alike (.str s) (.str t)
  | arr (xs ys : List Json) : Alike (.arr xs) (.arr ys)
  | obj {fields fields' : List (JsString × Json)} (h : SameMembers fields fields') :
    Alike (.obj fields) (.obj fields')

theorem Alike.kind_eq {x y : Json} (h : Alike x y) : kind y = kind x := by
  cases h <;> rfl

theorem alike_refl (x : Json) : Alike x x := by
  cases x with
  | null => exact .null
  | bool b => exact .bool b
  | num n => exact .num n
  | str s => exact .str s s
  | arr xs => exact .arr xs xs
  | obj fields => exact .obj fun _ _ => rfl

theorem SameMembers.assign {fields fields' : List (JsString × Json)}
    (h : SameMembers fields fields') {key key' : JsString} (hkey : Blurred key key') {x y : Json}
    (hxy : Alike x y) :
    SameMembers (JavaScriptValues.assign key x fields)
      (JavaScriptValues.assign key' y fields') := by
  intro other hother
  by_cases heq : key = other
  · obtain rfl : key' = other := (eq_iff_of_plain hkey hother).mpr heq
    subst heq
    rw [lookup_assign_self, lookup_assign_self, Option.map_some, Option.map_some, hxy.kind_eq]
  · have hne : key' ≠ other := mt (eq_iff_of_plain hkey hother).mp heq
    rw [lookup_assign_of_ne heq, lookup_assign_of_ne hne, h other hother]

theorem skip_blurred {s t : JsString} (h : Blurred s t) : Blurred (skip s) (skip t) :=
  dropWhile_blurred h blind_isBlank

/-- The readers of values, of elements and of members, by induction on their fuel. -/
structure ReadersFollow (fuel : ℕ) : Prop where
  value : ∀ s t, Blurred s t → Follows Alike (JSON.value fuel s) (JSON.value fuel t)
  elements : ∀ s t, Blurred s t → Follows (fun _ _ => True) (elements fuel s) (elements fuel t)
  members : ∀ fields fields' s t, SameMembers fields fields' → Blurred s t →
    Follows SameMembers (members fuel fields s) (members fuel fields' t)

theorem value_follows {fuel : ℕ} (ih : ReadersFollow fuel) {s t : JsString} (h : Blurred s t) :
    Follows Alike (JSON.value (fuel + 1) s) (JSON.value (fuel + 1) t) := by
  have hskip := skip_blurred h
  simp only [JSON.value]
  generalize skip s = s at hskip ⊢
  generalize skip t = t at hskip ⊢
  cases hskip with
  | nil => exact follows_none
  | @cons u v s t hu hrest =>
    simp only [hu.eq_iff (c := 0x22) (by decide), hu.eq_iff (c := 0x5B) (by decide),
      hu.eq_iff (c := 0x7B) (by decide), hu.eq_iff (c := 0x2D) (by decide),
      blind_isDigit.eq hu]
    split
    · exact (stringBody_follows hrest).map fun s t _ => .str s t
    split
    · have hskip := skip_blurred hrest
      generalize skip s = s at hskip ⊢
      generalize skip t = t at hskip ⊢
      cases hskip with
      | nil => exact follows_none
      | @cons w x s t hw hrest =>
        simp only [hw.eq_iff (c := 0x5D) (by decide)]
        split
        · exact follows_some (.arr [] []) hrest
        · exact (ih.elements _ _ (.cons hw hrest)).map fun xs ys _ => .arr xs ys
    split
    · have hskip := skip_blurred hrest
      generalize skip s = s at hskip ⊢
      generalize skip t = t at hskip ⊢
      cases hskip with
      | nil => exact follows_none
      | @cons w x s t hw hrest =>
        simp only [hw.eq_iff (c := 0x7D) (by decide)]
        split
        · exact follows_some (.obj fun _ _ => rfl) hrest
        · exact (ih.members [] [] _ _ (fun _ _ => rfl) (.cons hw hrest)).map fun _ _ => .obj
    have hequal : ∀ {o o' : Option (Json × JsString)}, Follows Eq o o' → Follows Alike o o' := by
      intro o o' h r hr
      obtain ⟨r', ho', heq, hst⟩ := h r hr
      exact ⟨r', ho', heq ▸ alike_refl r.1, hst⟩
    split
    · exact hequal (unsigned_follows true hrest)
    split
    · exact hequal (unsigned_follows false (.cons hu hrest))
    · exact hequal (keyword_follows (.cons hu hrest))

theorem elements_follows {fuel : ℕ} (ih : ReadersFollow fuel) {s t : JsString}
    (h : Blurred s t) :
    Follows (fun _ _ => True) (elements (fuel + 1) s) (elements (fuel + 1) t) := by
  simp only [elements]
  refine (ih.value s t h).bind fun x y s t _ hst => ?_
  have hskip := skip_blurred hst
  dsimp only
  generalize skip s = s at hskip ⊢
  generalize skip t = t at hskip ⊢
  cases hskip with
  | nil => exact follows_none
  | @cons u v s t hu hrest =>
    simp only [hu.eq_iff (c := 0x5D) (by decide), hu.eq_iff (c := 0x2C) (by decide)]
    split
    · exact follows_some trivial hrest
    split
    · exact (ih.elements s t hrest).map fun _ _ _ => trivial
    · exact follows_none

theorem members_follows {fuel : ℕ} (ih : ReadersFollow fuel)
    {fields fields' : List (JsString × Json)} (hfields : SameMembers fields fields')
    {s t : JsString} (h : Blurred s t) :
    Follows SameMembers (members (fuel + 1) fields s) (members (fuel + 1) fields' t) := by
  have hskip := skip_blurred h
  simp only [members]
  generalize skip s = s at hskip ⊢
  generalize skip t = t at hskip ⊢
  cases hskip with
  | nil => exact follows_none
  | @cons u v s t hu hrest =>
    simp only [hu.eq_iff (c := 0x22) (by decide)]
    split
    swap
    · exact follows_none
    refine (stringBody_follows hrest).bind fun key key' s t hkey hst => ?_
    have hskip := skip_blurred hst
    dsimp only
    generalize skip s = s at hskip ⊢
    generalize skip t = t at hskip ⊢
    cases hskip with
    | nil => exact follows_none
    | @cons w x s t hw hrest =>
      simp only [hw.eq_iff (c := 0x3A) (by decide)]
      split
      swap
      · exact follows_none
      refine (ih.value s t hrest).bind fun x y s t hxy hst => ?_
      have hassign := hfields.assign hkey hxy
      have hskip := skip_blurred hst
      dsimp only
      generalize skip s = s at hskip ⊢
      generalize skip t = t at hskip ⊢
      cases hskip with
      | nil => exact follows_none
      | @cons u v s t hu hrest =>
        simp only [hu.eq_iff (c := 0x7D) (by decide), hu.eq_iff (c := 0x2C) (by decide)]
        split
        · exact follows_some hassign hrest
        split
        · exact ih.members _ _ s t hassign hrest
        · exact follows_none

theorem readersFollow (fuel : ℕ) : ReadersFollow fuel := by
  induction fuel with
  | zero =>
    constructor
    · exact fun _ _ _ => follows_none
    · exact fun _ _ _ => follows_none
    · exact fun _ _ _ _ _ _ => follows_none
  | succ fuel ih =>
    constructor
    · exact fun _ _ h => value_follows ih h
    · exact fun _ _ h => elements_follows ih h
    · exact fun _ _ _ _ hfields h => members_follows ih hfields h

theorem toWellFormed_eq_iff {s key : JsString} (hkey : Plain key) :
    toWellFormed s = key ↔ s = key := eq_iff_of_plain (toWellFormed_blurred s) hkey

/-- What is parsed from a text is parsed from its column, up to the characters of strings. -/
theorem parse_toWellFormed {s : JsString} {x : Json} (h : parse s = .ok x) :
    ∃ y, parse (toWellFormed s) = .ok y ∧ Alike x y := by
  unfold parse at h ⊢
  have hread := (readersFollow (2 * s.length + 2)).value s _ (toWellFormed_blurred s)
  cases hv : JSON.value (2 * s.length + 2) s with
  | none =>
    rw [hv] at h
    cases h
  | some r =>
    obtain ⟨x', rest⟩ := r
    obtain ⟨⟨y, rest'⟩, hw, hxy, hrest⟩ := hread _ hv
    rw [hv] at h
    dsimp only at h
    split at h
    · rename_i hblank
      obtain rfl := Except.ok.inj h
      refine ⟨y, ?_, hxy⟩
      have hskip := skip_blurred hrest
      dsimp only at hblank hskip
      rw [hblank] at hskip
      rw [length_toWellFormed, hw]
      exact if_pos (List.forall₂_nil_left_iff.mp hskip)
    · cases h

theorem head_toWellFormed {s t : JsString} (h : Blurred s t)
    (hs : ∀ u ∈ s.head?, isSpace u = false) : ∀ v ∈ t.head?, isSpace v = false := by
  intro v hv
  cases h with
  | nil => cases hv
  | @cons u w s t hu _ =>
    obtain rfl : w = v := Option.some.inj hv
    rw [blind_isSpace.eq hu]
    exact hs u rfl

/-- The ends of a text are no blanks in its column either. -/
theorem trimmed_toWellFormed {s : JsString} (h : Trimmed s) : Trimmed (toWellFormed s) := by
  have hblurred := toWellFormed_blurred s
  refine ⟨head_toWellFormed hblurred h.1, ?_⟩
  rw [List.getLast?_eq_head?_reverse]
  apply head_toWellFormed (List.rel_reverse hblurred)
  rw [← List.getLast?_eq_head?_reverse]
  exact h.2

end ChatMicroservices.StoredTexts

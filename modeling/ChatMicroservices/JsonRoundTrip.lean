import ChatMicroservices.JsonSerialisation

/-!
# Reading what `JSON.stringify` writes

The text of every value is read back, and leaves what follows it. Strings, booleans and `null`
are read back as themselves; of a number only that some number is read.
-/

namespace ChatMicroservices.JSON
open JavaScriptValues JavaScriptOperators

theorem hexDigit_hexText {d : ℕ} (h : d < 16) : hexDigit (hexText d) = some (UInt16.ofNat d) := by
  have hall : ∀ d < 16, hexDigit (hexText d) = some (UInt16.ofNat d) := by decide
  exact hall d h

/-- Four hexadecimal digits make up a unit. -/
theorem unicodeEscape_hexText (u : UInt16) :
    unicodeEscape (hexText (u.toNat / 4096)) (hexText (u.toNat / 256 % 16))
      (hexText (u.toNat / 16 % 16)) (hexText (u.toNat % 16)) = some u := by
  have hlt := u.toNat_lt
  have h16 : (16 : UInt16).toNat = 16 := rfl
  rw [unicodeEscape, hexDigit_hexText (by omega), hexDigit_hexText (by omega),
    hexDigit_hexText (by omega), hexDigit_hexText (by omega)]
  refine congrArg some (UInt16.toNat_inj.mp ?_)
  simp only [UInt16.toNat_add, UInt16.toNat_mul, UInt16.toNat_ofNat', h16]
  omega

/-- A unit that a reader has read before the rest of a string. -/
abbrev reading (u : UInt16) (r : JsString × JsString) : JsString × JsString := (u :: r.1, r.2)

theorem stringBody_closed (rest : JsString) : stringBody (0x22 :: rest) = some ([], rest) := by
  rw [stringBody.eq_def]
  exact if_pos rfl

theorem stringBody_raw {u : UInt16} (hquote : u ≠ 0x22) (hslash : u ≠ 0x5C) (hcontrol : ¬ u < 0x20)
    (tail : JsString) : stringBody (u :: tail) = (stringBody tail).map (reading u) := by
  rw [stringBody.eq_def]
  simp only [if_neg hquote, if_neg hslash, if_neg hcontrol]
  cases stringBody tail <;> rfl

theorem stringBody_simple {e x : UInt16} (he : e ≠ 0x75) (hx : simpleEscape e = some x)
    (tail : JsString) : stringBody (0x5C :: e :: tail) = (stringBody tail).map (reading x) := by
  rw [stringBody.eq_def]
  have hquote : ¬ (0x5C : UInt16) = 0x22 := by decide
  simp only [if_neg hquote, if_true]
  split
  · rename_i h
    obtain ⟨rfl, rfl⟩ := List.cons.inj h
    simp only [if_neg he, hx]
    cases stringBody _ <;> rfl
  · rename_i h
    obtain ⟨rfl, rfl⟩ := List.cons.inj h
    simp only [hx]
    cases stringBody _ <;> rfl
  · rename_i h
    cases h

theorem stringBody_unicode (u : UInt16) (tail : JsString) :
    stringBody (unicodeText u ++ tail) = (stringBody tail).map (reading u) := by
  have htext : unicodeText u ++ tail = 0x5C :: 0x75 :: hexText (u.toNat / 4096) ::
      hexText (u.toNat / 256 % 16) :: hexText (u.toNat / 16 % 16) :: hexText (u.toNat % 16) ::
        tail := rfl
  have hquote : ¬ (0x5C : UInt16) = 0x22 := by decide
  rw [htext, stringBody.eq_def]
  simp only [if_neg hquote, if_true, unicodeEscape_hexText]
  cases stringBody tail <;> rfl

theorem stringBody_quotePoint (u : UInt16) (tail : JsString) :
    stringBody (quotePoint [u] ++ tail) = (stringBody tail).map (reading u) := by
  rw [quotePoint]
  split
  · rename_i h
    exact h ▸ stringBody_simple (by decide) (by decide) tail
  split
  · rename_i h
    exact h ▸ stringBody_simple (by decide) (by decide) tail
  split
  · rename_i h
    exact h ▸ stringBody_simple (by decide) (by decide) tail
  split
  · rename_i h
    exact h ▸ stringBody_simple (by decide) (by decide) tail
  split
  · rename_i h
    exact h ▸ stringBody_simple (by decide) (by decide) tail
  split
  · rename_i h
    rcases h with rfl | rfl
    · exact stringBody_simple (by decide) (by decide) tail
    · exact stringBody_simple (by decide) (by decide) tail
  split
  · exact stringBody_unicode u tail
  · rename_i hquote hother
    rw [not_or] at hquote hother
    exact stringBody_raw hquote.1 hquote.2 hother.1 tail

/-- Neither half of a surrogate pair needs an escape. -/
theorem surrogate_raw {u : UInt16} (h : 0xD800 ≤ u) : u ≠ 0x22 ∧ u ≠ 0x5C ∧ ¬ u < 0x20 := by
  have hlarge : 0xD800 ≤ u.toNat := UInt16.le_iff_toNat_le.mp h
  refine ⟨?_, ?_, ?_⟩
  · rintro rfl
    exact absurd hlarge (by decide)
  · rintro rfl
    exact absurd hlarge (by decide)
  · intro hlt
    have hsmall : u.toNat < 0x20 := UInt16.lt_iff_toNat_lt.mp hlt
    omega

/-- A string is read back up to its closing quote. -/
theorem stringBody_quote (s rest : JsString) :
    stringBody ((codePoints s).flatMap quotePoint ++ 0x22 :: rest) = some (s, rest) := by
  induction s using codePoints.induct with
  | case1 =>
    rw [codePoints, List.flatMap_nil, List.nil_append, stringBody_closed]
  | case2 u =>
    rw [codePoints, List.flatMap_cons, List.flatMap_nil, List.append_nil, stringBody_quotePoint,
      stringBody_closed]
    rfl
  | case3 u v s hpair ih =>
    obtain ⟨hu1, hu2, hu3⟩ := surrogate_raw hpair.1.1
    obtain ⟨hv1, hv2, hv3⟩ := surrogate_raw (UInt16.le_trans (by decide) hpair.2.1)
    rw [codePoints, if_pos hpair, List.flatMap_cons, List.append_assoc]
    have hpoint : quotePoint [u, v] ++ ((codePoints s).flatMap quotePoint ++ 0x22 :: rest) =
        u :: v :: ((codePoints s).flatMap quotePoint ++ 0x22 :: rest) := rfl
    rw [hpoint, stringBody_raw hu1 hu2 hu3, stringBody_raw hv1 hv2 hv3, ih]
    rfl
  | case4 u v s hpair ih =>
    rw [codePoints, if_neg hpair, List.flatMap_cons, List.append_assoc, stringBody_quotePoint, ih]
    rfl

/-- No number goes on into this text. -/
def Delimited (rest : JsString) : Prop :=
  ∀ u ∈ rest.head?, isDigit u = false ∧ u ≠ 0x2E ∧ u ≠ 0x65 ∧ u ≠ 0x45

/-- A digit or more. -/
def Digits (s : JsString) : Prop := s ≠ [] ∧ ∀ u ∈ s, isDigit u = true

/-- The digits before the point: none is a leading zero. -/
def Whole (s : JsString) : Prop := Digits s ∧ (s.head? = some 0x30 → s.length ≤ 1)

inductive Fraction : JsString → Prop where
  | none : Fraction []
  | point {ds : JsString} (h : Digits ds) : Fraction (0x2E :: ds)

inductive Exponent : JsString → Prop where
  | none : Exponent []
  | signed {sign : UInt16} {ds : JsString} (hsign : sign = 0x2D ∨ sign = 0x2B) (h : Digits ds) :
      Exponent (0x65 :: sign :: ds)

/-- The text of an unsigned number. -/
inductive Numeral : JsString → Prop where
  | mk {w f e : JsString} (hw : Whole w) (hf : Fraction f) (he : Exponent e) :
      Numeral (w ++ (f ++ e))

theorem span_digits {w tail : JsString} (hw : ∀ u ∈ w, isDigit u = true)
    (ht : ∀ u ∈ tail.head?, isDigit u = false) :
    (w ++ tail).takeWhile isDigit = w ∧ (w ++ tail).dropWhile isDigit = tail := by
  rw [List.takeWhile_append_of_pos hw, List.dropWhile_append_of_pos hw]
  cases tail with
  | nil => exact ⟨List.append_nil w, rfl⟩
  | cons u tail =>
    have hu : isDigit u = false := ht u rfl
    have htake : (u :: tail).takeWhile isDigit = [] := by simp [hu]
    have hdrop : (u :: tail).dropWhile isDigit = u :: tail := by simp [hu]
    rw [htake, hdrop]
    exact ⟨List.append_nil w, rfl⟩

theorem fractionPart_reads {f : JsString} (hf : Fraction f) :
    ∃ ds, ∀ tail : JsString, (∀ u ∈ tail.head?, isDigit u = false ∧ u ≠ 0x2E) →
      fractionPart (f ++ tail) = some (ds, tail) := by
  cases hf with
  | none =>
    refine ⟨[], fun tail ht => ?_⟩
    cases tail with
    | nil => rfl
    | cons u tail => exact if_neg (ht u rfl).2
  | @point ds h =>
    refine ⟨ds, fun tail ht => ?_⟩
    obtain ⟨htake, hdrop⟩ := span_digits h.2 fun u hu => (ht u hu).1
    rw [List.cons_append, fractionPart, if_pos rfl]
    simp only [htake, hdrop, if_neg h.1]

theorem exponentDigits_reads {ds : JsString} (h : Digits ds) (negative : Bool) :
    ∃ n, ∀ tail : JsString, (∀ u ∈ tail.head?, isDigit u = false) →
      exponentDigits negative (ds ++ tail) = some (n, tail) := by
  refine ⟨if negative then -decimalValue ds else decimalValue ds, fun tail ht => ?_⟩
  obtain ⟨htake, hdrop⟩ := span_digits h.2 ht
  simp only [exponentDigits, htake, hdrop, if_neg h.1]

theorem exponentPart_reads {e : JsString} (he : Exponent e) :
    ∃ n, ∀ tail, Delimited tail → exponentPart (e ++ tail) = some (n, tail) := by
  cases he with
  | none =>
    refine ⟨0, fun tail ht => ?_⟩
    cases tail with
    | nil => rfl
    | cons u tail =>
      obtain ⟨-, -, hlower, hupper⟩ := ht u rfl
      exact if_neg (not_or.mpr ⟨hlower, hupper⟩)
  | @signed sign ds hsign h =>
    rcases hsign with rfl | rfl
    · obtain ⟨n, hn⟩ := exponentDigits_reads h true
      exact ⟨n, fun tail ht => hn tail fun u hu => (ht u hu).1⟩
    · obtain ⟨n, hn⟩ := exponentDigits_reads h false
      exact ⟨n, fun tail ht => hn tail fun u hu => (ht u hu).1⟩

/-- What follows the whole part of a numeral is not a digit, and after the fraction not a point. -/
theorem head_exponent {e tail : JsString} (he : Exponent e) (ht : Delimited tail) :
    ∀ u ∈ (e ++ tail).head?, isDigit u = false ∧ u ≠ 0x2E := by
  cases he with
  | none => exact fun u hu => ⟨(ht u hu).1, (ht u hu).2.1⟩
  | signed =>
    intro u hu
    obtain rfl := Option.some.inj hu
    decide

theorem head_fraction {f tail : JsString} (hf : Fraction f)
    (ht : ∀ u ∈ tail.head?, isDigit u = false) : ∀ u ∈ (f ++ tail).head?, isDigit u = false := by
  cases hf with
  | none => exact ht
  | point =>
    intro u hu
    obtain rfl := Option.some.inj hu
    decide

/-- A numeral is read to its end. -/
theorem unsigned_reads {s : JsString} (hs : Numeral s) (negative : Bool) :
    ∃ n, ∀ rest, Delimited rest → unsigned negative (s ++ rest) = some (.num n, rest) := by
  obtain ⟨hw, hf, he⟩ := hs
  rename_i w f e
  obtain ⟨ds, hds⟩ := fractionPart_reads hf
  obtain ⟨n, hn⟩ := exponentPart_reads he
  have hwhole : ¬ (w = [] ∨ (w.head? = some 0x30 ∧ 1 < w.length)) := by
    rintro (h | ⟨h, hlen⟩)
    · exact hw.1.1 h
    · exact absurd (hw.2 h) (by omega)
  let scaled : ℚ := decimalValue (w ++ ds) * 10 ^ (n - ds.length)
  refine ⟨toDouble (if negative then -scaled else scaled), fun rest hrest => ?_⟩
  have hexp := head_exponent he hrest
  have hfrac : ∀ u ∈ (f ++ (e ++ rest)).head?, isDigit u = false :=
    head_fraction hf fun u hu => (hexp u hu).1
  obtain ⟨htake, hdrop⟩ := span_digits hw.1.2 hfrac
  rw [List.append_assoc, List.append_assoc, unsigned]
  simp only [htake, hdrop, if_neg hwhole, hds _ hexp, hn _ hrest, Option.bind_eq_bind,
    Option.bind_some]
  rfl

theorem natText_eq (n : ℕ) :
    js (toString n) = (Nat.toDigits 10 n).map fun c => UInt16.ofNat c.toNat := by
  rw [js, Nat.toString_eq_repr, Nat.toList_repr]

theorem natText_ne_nil (n : ℕ) : js (toString n) ≠ [] := by
  rw [natText_eq]
  simp

theorem digits_natText (n : ℕ) : Digits (js (toString n)) := by
  refine ⟨natText_ne_nil n, ?_⟩
  intro u hu
  rw [natText_eq] at hu
  obtain ⟨c, hc, rfl⟩ := List.mem_map.mp hu
  have hdigit : c.isDigit = true := Nat.isDigit_of_mem_toDigits (by decide) (by decide) hc
  have hrange : 48 ≤ c.toNat ∧ c.toNat ≤ 57 := by
    simpa [Char.isDigit, UInt32.le_iff_toNat_le] using hdigit
  have hall : ∀ m ≤ 57, 48 ≤ m → isDigit (UInt16.ofNat m) = true := by decide
  exact hall c.toNat hrange.2 hrange.1

/-- A positive number has no leading zero. -/
theorem head_natText {n : ℕ} (h : 0 < n) : (js (toString n)).head? ≠ some 0x30 := by
  rw [natText_eq, List.head?_map]
  induction n using Nat.strongRecOn with
  | ind n ih =>
    rw [Nat.toDigits_eq_if (by decide)]
    split
    · rename_i hlt
      have hall : ∀ d < 10, 0 < d → UInt16.ofNat (Nat.digitChar d).toNat ≠ 0x30 := by decide
      simpa using hall n hlt h
    · rename_i hge
      have hne : Nat.toDigits 10 (n / 10) ≠ [] := by simp
      rw [List.head?_append_of_ne_nil _ hne]
      exact ih (n / 10) (by omega) (by omega)

/-- The digits of a positive number: the first is zero only when it is the only one. -/
theorem digitsOf_ne_zero {x : ℚ} (hx : x ≠ 0) {k s : ℕ} {e : ℤ} (h : digitsOf x k = some (s, e)) :
    s ≠ 0 := by
  obtain ⟨found, hfound, hs⟩ := Option.map_eq_some_iff.mp h
  have hzero : ∀ q : ℚ, toDouble q = .finite x → q ≠ 0 := by
    rintro q hq rfl
    rw [toDouble, if_pos rfl] at hq
    exact hx (Number.finite.inj hq).symm
  have htrip : ∀ m : ℕ, decide (toDouble (m * 10 ^ (Int.log 10 x + 1 - k)) = .finite x) = true →
      m ≠ 0 := by
    rintro m hm rfl
    refine hzero _ (of_decide_eq_true hm) ?_
    rw [Nat.cast_zero, zero_mul]
  have hne : found ≠ 0 := by
    split at hfound
    · rename_i hm
      exact Option.some.inj hfound ▸ htrip _ hm
    split at hfound
    · rename_i hm
      exact Option.some.inj hfound ▸ htrip _ hm
    split at hfound
    · rename_i hm
      exact Option.some.inj hfound ▸ htrip _ hm
    · cases hfound
  split at hs
  · rw [← (Prod.mk.inj hs).1]
    exact one_ne_zero
  · rw [← (Prod.mk.inj hs).1]
    exact hne

theorem shortestDigits_ne_zero {x : ℚ} (hx : x ≠ 0) :
    (shortestDigits x).1 ≠ 0 ∨ shortestDigits x = (0, 0) := by
  rw [shortestDigits]
  cases h : (List.range 17).findSome? fun k => digitsOf x (k + 1) with
  | none => exact .inr rfl
  | some r =>
    obtain ⟨k, -, hk⟩ := List.exists_of_findSome?_eq_some h
    exact .inl (digitsOf_ne_zero hx hk)

theorem Digits.append_zeros {ds : JsString} (h : Digits ds) (k : ℕ) :
    Digits (ds ++ List.replicate k 0x30) := by
  refine ⟨fun hnil => h.1 (List.append_eq_nil_iff.mp hnil).1, ?_⟩
  intro u hu
  rcases List.mem_append.mp hu with hu | hu
  · exact h.2 u hu
  · rw [List.eq_of_mem_replicate hu]
    decide

theorem Digits.take {ds : JsString} (h : Digits ds) {k : ℕ} (hk : 0 < k) : Digits (ds.take k) := by
  refine ⟨?_, fun u hu => h.2 u (List.mem_of_mem_take hu)⟩
  intro hnil
  rcases List.take_eq_nil_iff.mp hnil with h0 | h0
  · omega
  · exact h.1 h0

theorem Digits.drop {ds : JsString} (h : Digits ds) {k : ℕ} (hk : k < ds.length) :
    Digits (ds.drop k) := by
  refine ⟨?_, fun u hu => h.2 u (List.mem_of_mem_drop hu)⟩
  intro hnil
  rw [List.drop_eq_nil_iff] at hnil
  omega

theorem Whole.take {ds : JsString} (h : Digits ds) (hhead : ds.head? ≠ some 0x30) {k : ℕ}
    (hk : 0 < k) : Whole (ds.take k) := by
  refine ⟨h.take hk, fun hz => absurd ?_ hhead⟩
  rwa [List.head?_take, if_neg (by omega)] at hz

/-- The numeral of digits and the place of the point. -/
theorem pointed_numeral {ds : JsString} {n : ℤ} (h : Digits ds)
    (hhead : ds.head? ≠ some 0x30 ∨ (ds.length = 1 ∧ n = 1)) : Numeral (pointed ds n) := by
  have hlen : 0 < ds.length := List.length_pos_of_ne_nil h.1
  have hne : ¬ (ds.length = 1 ∧ n = 1) → ds.head? ≠ some 0x30 := hhead.resolve_right
  rw [pointed]
  split
  · -- an integer, with its zeros
    have hw : Whole (ds ++ List.replicate (n - ds.length).toNat 0x30) := by
      refine ⟨h.append_zeros _, ?_⟩
      intro hz
      rw [List.head?_append_of_ne_nil _ h.1] at hz
      rcases hhead with hne | ⟨h1, rfl⟩
      · exact absurd hz hne
      · rw [List.length_append, List.length_replicate]
        omega
    simpa using Numeral.mk hw .none .none
  rename_i hint
  split
  · -- the point is among the digits
    rename_i hn
    have hw : Whole (ds.take n.toNat) := .take h (hne (by omega)) (by omega)
    have hf : Digits (ds.drop n.toNat) := h.drop (by omega)
    have htext : ds.take n.toNat ++ js "." ++ ds.drop n.toNat =
        ds.take n.toNat ++ (0x2E :: ds.drop n.toNat ++ []) := by
      rw [List.append_nil, List.append_assoc]
      rfl
    exact htext ▸ .mk hw (.point hf) .none
  split
  · -- the digits follow the point
    have hw : Whole (js "0") := ⟨digits_natText 0, fun _ => le_refl 1⟩
    have hf : Digits (List.replicate (-n).toNat 0x30 ++ ds) := by
      refine ⟨fun hnil => h.1 (List.append_eq_nil_iff.mp hnil).2, ?_⟩
      intro u hu
      rcases List.mem_append.mp hu with hu | hu
      · rw [List.eq_of_mem_replicate hu]
        decide
      · exact h.2 u hu
    have htext : js "0." ++ List.replicate (-n).toNat 0x30 ++ ds =
        js "0" ++ (0x2E :: (List.replicate (-n).toNat 0x30 ++ ds) ++ []) := by
      rw [List.append_nil, List.append_assoc]
      rfl
    exact htext ▸ .mk hw (.point hf) .none
  · -- the scientific form
    rename_i hn hsmall
    have hw : Whole (ds.take 1) := .take h (hne (by omega)) one_pos
    have hf : Fraction (if ds.length = 1 then [] else js "." ++ ds.drop 1) := by
      split
      · exact .none
      · exact .point (h.drop (by omega))
    have he : Exponent (js "e" ++ (if n - 1 < 0 then js "-" else js "+") ++
        js (toString (n - 1).natAbs)) := by
      split
      · exact .signed (.inl rfl) (digits_natText _)
      · exact .signed (.inr rfl) (digits_natText _)
    simpa using Numeral.mk hw hf he

theorem positiveText_numeral {x : ℚ} (hx : x ≠ 0) : Numeral (positiveText x) := by
  rw [positiveText]
  have hd := digits_natText (shortestDigits x).1
  rcases shortestDigits_ne_zero hx with h | h
  · exact pointed_numeral hd (.inl (head_natText (Nat.pos_of_ne_zero h)))
  · rw [h]
    exact pointed_numeral (digits_natText 0) (.inr ⟨by decide, by decide⟩)

theorem Numeral.head_digit {s : JsString} (h : Numeral s) :
    ∃ u tail, s = u :: tail ∧ isDigit u = true := by
  obtain ⟨⟨⟨hne, hdigit⟩, -⟩, -, -⟩ := h
  rename_i w f e
  obtain ⟨u, tail, rfl⟩ := List.exists_cons_of_ne_nil hne
  exact ⟨u, tail ++ (f ++ e), rfl, hdigit u (List.mem_cons_self ..)⟩

/-- A text that is read as a value whole, whatever follows it. -/
structure Reads (text : JsString) (v : Json) : Prop where
  head : ∃ u tail, text = u :: tail ∧ isBlank u = false ∧ u ≠ 0x5D
  reads : ∀ fuel rest, text.length ≤ fuel → Delimited rest →
    value fuel (text ++ rest) = some (v, rest)

theorem skip_cons {u : UInt16} (h : isBlank u = false) (tail : JsString) :
    skip (u :: tail) = u :: tail := by
  rw [skip, List.dropWhile_cons_of_neg (by rw [h]; decide)]

/-- A value is read behind a first unit that is not blank. -/
theorem Reads.intro {u : UInt16} {t : JsString} {v : Json} (hblank : isBlank u = false)
    (hbracket : u ≠ 0x5D)
    (h : ∀ fuel rest, t.length ≤ fuel → Delimited rest →
      value (fuel + 1) (u :: (t ++ rest)) = some (v, rest)) : Reads (u :: t) v := by
  refine ⟨⟨u, t, rfl, hblank, hbracket⟩, ?_⟩
  intro fuel rest hfuel hrest
  cases fuel with
  | zero => exact absurd hfuel (Nat.not_succ_le_zero _)
  | succ fuel => exact h fuel rest (Nat.le_of_succ_le_succ hfuel) hrest

theorem reads_quote (s : JsString) : Reads (quote s) (.str s) := by
  refine .intro (t := (codePoints s).flatMap quotePoint ++ js "\"") (by decide) (by decide) ?_
  intro fuel rest _ _
  have hbody := stringBody_quote s rest
  rw [value, skip_cons (by decide)]
  rw [List.append_assoc]
  change (stringBody ((codePoints s).flatMap quotePoint ++ 0x22 :: rest)).map _ = _
  rw [hbody]
  rfl

theorem reads_null : Reads (js "null") .null :=
  .intro (by decide) (by decide) fun _ _ _ _ => rfl

theorem reads_bool (b : Bool) : Reads (if b then js "true" else js "false") (.bool b) := by
  cases b with
  | false => exact .intro (by decide) (by decide) fun _ _ _ _ => rfl
  | true => exact .intro (by decide) (by decide) fun _ _ _ _ => rfl

theorem reads_numeral {s : JsString} (h : Numeral s) : ∃ n, Reads s (.num n) := by
  obtain ⟨n, hn⟩ := unsigned_reads h false
  obtain ⟨u, tail, rfl, hu⟩ := h.head_digit
  have hall : ∀ w : UInt16, isDigit w = false → u ≠ w := by
    rintro w hw rfl
    rw [hu] at hw
    cases hw
  have hblank : isBlank u = false := by
    have h1 := hall 0x20 (by decide)
    have h2 := hall 0x09 (by decide)
    have h3 := hall 0x0A (by decide)
    have h4 := hall 0x0D (by decide)
    simp [isBlank, h1, h2, h3, h4]
  refine ⟨n, .intro hblank (hall 0x5D (by decide)) fun fuel rest _ hrest => ?_⟩
  rw [value, skip_cons hblank]
  simp only [if_neg (hall 0x22 (by decide)), if_neg (hall 0x5B (by decide)),
    if_neg (hall 0x7B (by decide)), if_neg (hall 0x2D (by decide)), hu, if_true]
  exact hn rest hrest

theorem reads_negative {s : JsString} (h : Numeral s) : ∃ n, Reads (js "-" ++ s) (.num n) := by
  obtain ⟨n, hn⟩ := unsigned_reads h true
  exact ⟨n, .intro (t := s) (by decide) (by decide) fun _ rest _ hrest => hn rest hrest⟩

/-- The forms that the text of a number has. -/
theorem numberText_cases (n : Number) : numberText n = js "null" ∨ Numeral (numberText n) ∨
    ∃ s, Numeral s ∧ numberText n = js "-" ++ s := by
  cases n with
  | infinite b => exact .inl rfl
  | finite q =>
    rw [numberText]
    split
    · exact .inr (.inl (.mk (w := js "0") ⟨digits_natText 0, fun _ => le_refl 1⟩ .none .none))
    rename_i hq
    split
    · exact .inr (.inr ⟨_, positiveText_numeral (neg_ne_zero.mpr hq), rfl⟩)
    · exact .inr (.inl (positiveText_numeral hq))

theorem reads_number (n : Number) : ∃ v, Reads (numberText n) v := by
  rcases numberText_cases n with h | h | ⟨s, h, htext⟩
  · exact ⟨.null, h ▸ reads_null⟩
  · obtain ⟨m, hm⟩ := reads_numeral h
    exact ⟨.num m, hm⟩
  · obtain ⟨m, hm⟩ := reads_negative h
    exact ⟨.num m, htext ▸ hm⟩

theorem delimited_cons {u : UInt16} (h : isDigit u = false) (hpoint : u ≠ 0x2E) (hlower : u ≠ 0x65)
    (hupper : u ≠ 0x45) (rest : JsString) : Delimited (u :: rest) := by
  intro v hv
  obtain rfl := Option.some.inj hv
  exact ⟨h, hpoint, hlower, hupper⟩

theorem delimited_comma (rest : JsString) : Delimited (0x2C :: rest) :=
  delimited_cons (by decide) (by decide) (by decide) (by decide) rest

/-- The elements of an array, each read as its partner. -/
abbrev ReadsAll (xs ys : List Json) : Prop := List.Forall₂ (fun x y => Reads (stringify x) y) xs ys

theorem elements_reads {xs ys : List Json} (h : ReadsAll xs ys) (hne : xs ≠ []) (fuel : ℕ)
    (rest : JsString) (hfuel : (stringifyElements xs).length < fuel) :
    elements fuel (stringifyElements xs ++ 0x5D :: rest) = some (ys, rest) := by
  induction h generalizing fuel with
  | nil => exact absurd rfl hne
  | @cons x y xs ys hx h ih =>
    obtain ⟨fuel, rfl⟩ : ∃ f, fuel = f + 1 := ⟨fuel - 1, by omega⟩
    cases h with
    | nil =>
      rw [stringifyElements] at hfuel ⊢
      rw [elements, hx.reads fuel _ (by omega) (delimited_cons (by decide) (by decide) (by decide)
        (by decide) rest)]
      simp only [Option.bind_eq_bind, Option.bind_some,
        skip_cons (show isBlank 0x5D = false by decide)]
      rfl
    | @cons x' y' xs ys hx' h =>
      have hsplit : stringifyElements (x :: x' :: xs) ++ 0x5D :: rest =
          stringify x ++ 0x2C :: (stringifyElements (x' :: xs) ++ 0x5D :: rest) := by
        rw [stringifyElements, List.append_assoc, List.append_assoc]
        rfl
      have hlen : (stringifyElements (x :: x' :: xs)).length =
          (stringify x).length + 1 + (stringifyElements (x' :: xs)).length := by
        rw [stringifyElements, List.length_append, List.length_append]
        rfl
      rw [hsplit, elements, hx.reads fuel _ (by omega) (delimited_comma _)]
      simp only [Option.bind_eq_bind, Option.bind_some,
        skip_cons (show isBlank 0x2C = false by decide)]
      rw [if_neg (by decide), if_pos trivial, ih (List.cons_ne_nil _ _) fuel (by omega)]
      rfl

/-- The members of an object, each value read as its partner's. -/
abbrev ReadsMembers (ms ns : List (JsString × Json)) : Prop :=
  List.Forall₂ (fun m n => m.1 = n.1 ∧ Reads (stringify m.2) n.2) ms ns

/-- The members of an object assigned in order. -/
def assignAll (ms fields : List (JsString × Json)) : List (JsString × Json) :=
  ms.foldl (fun fields m => assign m.1 m.2 fields) fields

/-- One member and what follows its value. -/
theorem members_reads_one {k : JsString} {x y : Json} (h : Reads (stringify x) y) {fuel : ℕ}
    (hfuel : (stringify x).length ≤ fuel) (fields : List (JsString × Json)) {u : UInt16}
    (hu : u = 0x7D ∨ u = 0x2C) (rest : JsString) :
    members (fuel + 1) fields (quote k ++ js ":" ++ stringify x ++ u :: rest) =
      if u = 0x7D then some (assign k y fields, rest)
      else members fuel (assign k y fields) rest := by
  have hdelimited : Delimited (u :: rest) := by
    rcases hu with rfl | rfl
    · exact delimited_cons (by decide) (by decide) (by decide) (by decide) rest
    · exact delimited_comma rest
  have hsplit : quote k ++ js ":" ++ stringify x ++ u :: rest =
      0x22 :: ((codePoints k).flatMap quotePoint ++
        0x22 :: 0x3A :: (stringify x ++ u :: rest)) := by
    simp only [quote, List.append_assoc]
    rfl
  have hcolon := skip_cons (show isBlank 0x3A = false by decide) (stringify x ++ u :: rest)
  rw [hsplit, members, skip_cons (by decide)]
  simp only [if_true, stringBody_quote, Option.bind_eq_bind, Option.bind_some, hcolon,
    h.reads fuel _ hfuel hdelimited]
  rcases hu with rfl | rfl
  · rw [skip_cons (by decide)]
    rfl
  · rw [skip_cons (by decide)]
    rfl

theorem members_reads {ms ns : List (JsString × Json)} (h : ReadsMembers ms ns) (hne : ms ≠ [])
    (fuel : ℕ) (fields : List (JsString × Json)) (rest : JsString)
    (hfuel : (stringifyMembers ms).length < fuel) :
    members fuel fields (stringifyMembers ms ++ 0x7D :: rest) =
      some (assignAll ns fields, rest) := by
  induction h generalizing fuel fields with
  | nil => exact absurd rfl hne
  | @cons m n ms ns hm h ih =>
    obtain ⟨k, x⟩ := m
    obtain ⟨rfl, hx⟩ := hm
    obtain ⟨fuel, rfl⟩ : ∃ f, fuel = f + 1 := ⟨fuel - 1, by omega⟩
    cases h with
    | nil =>
      have hlen : (stringify x).length ≤ fuel := by
        rw [stringifyMembers, List.length_append] at hfuel
        omega
      rw [stringifyMembers, members_reads_one hx hlen fields (.inl rfl) rest]
      rfl
    | @cons m' n' ms ns hm' h =>
      have hsplit : stringifyMembers ((n.1, x) :: m' :: ms) ++ 0x7D :: rest =
          quote n.1 ++ js ":" ++ stringify x ++
            0x2C :: (stringifyMembers (m' :: ms) ++ 0x7D :: rest) := by
        rw [stringifyMembers, List.append_assoc, List.append_assoc]
        rfl
      have hlen : (stringifyMembers ((n.1, x) :: m' :: ms)).length =
          (quote n.1 ++ js ":").length + (stringify x).length + 1 +
            (stringifyMembers (m' :: ms)).length := by
        rw [stringifyMembers, List.length_append, List.length_append, List.length_append]
        rfl
      have hvalue : (stringify x).length ≤ fuel := by omega
      rw [hsplit, members_reads_one hx hvalue fields (.inr rfl), if_neg (by decide),
        ih (List.cons_ne_nil _ _) fuel _ (by omega)]
      rfl

theorem elements_head {x y : Json} (hx : Reads (stringify x) y) (xs : List Json) :
    ∃ u tail, stringifyElements (x :: xs) = u :: tail ∧ isBlank u = false ∧ u ≠ 0x5D := by
  obtain ⟨u, tail, htext, hblank, hbracket⟩ := hx.head
  cases xs with
  | nil => exact ⟨u, tail, htext, hblank, hbracket⟩
  | cons x' xs =>
    refine ⟨u, tail ++ js "," ++ stringifyElements (x' :: xs), ?_, hblank, hbracket⟩
    rw [stringifyElements, htext]
    rfl

theorem value_array {u : UInt16} (hblank : isBlank u = false) (hbracket : u ≠ 0x5D) (fuel : ℕ)
    (tail : JsString) : value (fuel + 1) (0x5B :: u :: tail) =
      (elements fuel (u :: tail)).map fun r => (.arr r.1, r.2) := by
  rw [value, skip_cons (by decide)]
  simp only [skip_cons hblank, if_neg hbracket]
  rfl

theorem reads_array {xs ys : List Json} (h : ReadsAll xs ys) :
    Reads (stringify (.arr xs)) (.arr ys) := by
  rw [stringify]
  refine .intro (u := 0x5B) (t := stringifyElements xs ++ js "]") (by decide) (by decide) ?_
  intro fuel rest hfuel _
  cases h with
  | nil => rfl
  | @cons x y xs ys hx h =>
    have hlen : (stringifyElements (x :: xs)).length < fuel := by
      rw [List.length_append] at hfuel
      exact Nat.lt_of_succ_le hfuel
    have hreads := elements_reads (.cons hx h) (List.cons_ne_nil _ _) fuel rest hlen
    obtain ⟨u, tail, htext, hblank, hbracket⟩ := elements_head hx xs
    rw [htext, List.cons_append] at hreads
    rw [List.append_assoc, htext, List.cons_append, value_array hblank hbracket]
    exact congrArg (Option.map fun r => (Json.arr r.1, r.2)) hreads

theorem value_object (fuel : ℕ) (tail : JsString) : value (fuel + 1) (0x7B :: 0x22 :: tail) =
    (members fuel [] (0x22 :: tail)).map fun r => (.obj r.1, r.2) := by
  rw [value, skip_cons (by decide)]
  simp only [skip_cons (show isBlank 0x22 = false by decide)]
  rfl

theorem reads_object {ms ns : List (JsString × Json)} (h : ReadsMembers ms ns) :
    Reads (stringify (.obj ms)) (.obj (assignAll ns [])) := by
  rw [stringify]
  refine .intro (u := 0x7B) (t := stringifyMembers ms ++ js "\x7d") (by decide) (by decide) ?_
  intro fuel rest hfuel _
  cases h with
  | nil => rfl
  | @cons m n ms ns hm h =>
    have hlen : (stringifyMembers (m :: ms)).length < fuel := by
      rw [List.length_append] at hfuel
      exact Nat.lt_of_succ_le hfuel
    have hreads := members_reads (.cons hm h) (List.cons_ne_nil _ _) fuel [] rest hlen
    obtain ⟨tail, htext⟩ : ∃ tail, stringifyMembers (m :: ms) = 0x22 :: tail := by
      cases ms with
      | nil => exact ⟨_, rfl⟩
      | cons m' ms => exact ⟨_, rfl⟩
    rw [htext, List.cons_append] at hreads
    rw [List.append_assoc, htext, List.cons_append, value_object]
    exact congrArg (Option.map fun r => (Json.obj r.1, r.2)) hreads

mutual

/-- Every text that is written is read. -/
theorem stringify_reads : (v : Json) → ∃ w, Reads (stringify v) w
  | .null => ⟨.null, reads_null⟩
  | .bool b => ⟨.bool b, reads_bool b⟩
  | .num n => reads_number n
  | .str s => ⟨.str s, reads_quote s⟩
  | .arr xs =>
    have ⟨ys, h⟩ := elements_partners xs
    ⟨.arr ys, reads_array h⟩
  | .obj ms =>
    have ⟨ns, h⟩ := members_partners ms
    ⟨.obj (assignAll ns []), reads_object h⟩

theorem elements_partners : (xs : List Json) → ∃ ys, ReadsAll xs ys
  | [] => ⟨[], .nil⟩
  | x :: xs =>
    have ⟨y, hy⟩ := stringify_reads x
    have ⟨ys, h⟩ := elements_partners xs
    ⟨y :: ys, .cons hy h⟩

theorem members_partners : (ms : List (JsString × Json)) → ∃ ns, ReadsMembers ms ns
  | [] => ⟨[], .nil⟩
  | (k, x) :: ms =>
    have ⟨y, hy⟩ := stringify_reads x
    have ⟨ns, h⟩ := members_partners ms
    ⟨(k, y) :: ns, .cons ⟨rfl, hy⟩ h⟩

end

/-- `JSON.parse` of a text that is read whole. -/
theorem Reads.parse {text : JsString} {v : Json} (h : Reads text v) : parse text = .ok v := by
  have hnil : Delimited [] := by
    intro u hu
    cases hu
  have hreads := h.reads (2 * text.length + 2) [] (by omega) hnil
  rw [List.append_nil] at hreads
  rw [JSON.parse, hreads]
  rfl

/-- What the other side reads for a value that is written as JSON; what JSON does not have is
left out. -/
def carried : Value → Value
  | .json v =>
    match parse (stringify v) with
    | .ok w => .json w
    | .error _ => .undefined
  | .undefined | .function => .undefined

@[simp] theorem carried_str (s : JsString) : carried (.json (.str s)) = .json (.str s) := by
  have hparse : parse (stringify (.str s)) = .ok (.str s) := (reads_quote s).parse
  simp [carried, hparse]

end ChatMicroservices.JSON

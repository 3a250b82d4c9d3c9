import ChatMicroservices.JsonRoundTrip
import ChatMicroservices.RelatedLists

/-!
# Lines of JSON

A text of `JSON.stringify` has no control characters, so it is one line, and it is read back as
a value of the same kind: the members of an object that are strings are read as they are.
-/

namespace ChatMicroservices.JSON
open JavaScriptValues JavaScriptOperators RelatedLists

/-- The text has no control character. -/
def OneLine (s : JsString) : Prop := ∀ u ∈ s, ¬ u < 0x20

instance (s : JsString) : Decidable (OneLine s) := List.decidableBAll (fun u => ¬ u < 0x20) s

theorem OneLine.append {s t : JsString} (hs : OneLine s) (ht : OneLine t) : OneLine (s ++ t) := by
  intro u hu
  rcases List.mem_append.mp hu with hu | hu
  · exact hs u hu
  · exact ht u hu

theorem oneLine_of_large {s : JsString} (h : ∀ u ∈ s, 0x20 ≤ u.toNat) : OneLine s := by
  intro u hu hlt
  have hsmall : u.toNat < 0x20 := UInt16.lt_iff_toNat_lt.mp hlt
  have := h u hu
  omega

theorem Digits.oneLine {s : JsString} (h : Digits s) : OneLine s := by
  refine oneLine_of_large fun u hu => ?_
  have hdigit := h.2 u hu
  simp only [isDigit, decide_eq_true_eq, UInt16.le_iff_toNat_le] at hdigit
  have hlow : 48 ≤ u.toNat := hdigit.1
  omega

theorem Numeral.oneLine {s : JsString} (h : Numeral s) : OneLine s := by
  obtain ⟨hw, hf, he⟩ := h
  refine hw.1.oneLine.append (OneLine.append ?_ ?_)
  · cases hf with
    | none => exact fun u hu => absurd hu List.not_mem_nil
    | point hd => exact List.forall_mem_cons.mpr ⟨by decide, hd.oneLine⟩
  · cases he with
    | none => exact fun u hu => absurd hu List.not_mem_nil
    | signed hsign hd =>
      refine List.forall_mem_cons.mpr ⟨by decide, List.forall_mem_cons.mpr ⟨?_, hd.oneLine⟩⟩
      rcases hsign with rfl | rfl
      · decide
      · decide

theorem numberText_oneLine (n : Number) : OneLine (numberText n) := by
  rcases numberText_cases n with h | h | ⟨s, h, htext⟩
  · rw [h]
    decide
  · exact h.oneLine
  · rw [htext]
    exact OneLine.append (by decide) h.oneLine

theorem unicodeText_oneLine (u : UInt16) : OneLine (unicodeText u) := by
  have hhex : ∀ d < 16, ¬ hexText d < 0x20 := by decide
  have hu : u.toNat < 65536 := u.toNat_lt
  refine OneLine.append (by decide) ?_
  intro v hv
  simp only [List.mem_cons, List.not_mem_nil, or_false] at hv
  rcases hv with rfl | rfl | rfl | rfl
  · exact hhex _ (by omega)
  · exact hhex _ (by omega)
  · exact hhex _ (by omega)
  · exact hhex _ (by omega)

theorem quotePoint_oneLine (u : UInt16) : OneLine (quotePoint [u]) := by
  simp only [quotePoint]
  split_ifs with _ _ _ _ _ hescaped hunicode
  · decide
  · decide
  · decide
  · decide
  · decide
  · rcases hescaped with rfl | rfl
    · decide
    · decide
  · exact unicodeText_oneLine u
  · rw [not_or] at hunicode
    exact List.forall_mem_cons.mpr ⟨hunicode.1, fun _ h => absurd h List.not_mem_nil⟩

theorem body_oneLine (s : JsString) : OneLine ((codePoints s).flatMap quotePoint) := by
  induction s using codePoints.induct with
  | case1 => exact fun _ h => absurd h List.not_mem_nil
  | case2 u => simpa [codePoints] using quotePoint_oneLine u
  | case3 u v s hpair ih =>
    rw [codePoints, if_pos hpair, List.flatMap_cons]
    refine OneLine.append ?_ ih
    have hu := (surrogate_raw hpair.1.1).2.2
    have hv := (surrogate_raw (UInt16.le_trans (by decide) hpair.2.1)).2.2
    exact List.forall_mem_cons.mpr ⟨hu, List.forall_mem_cons.mpr
      ⟨hv, fun _ h => absurd h List.not_mem_nil⟩⟩
  | case4 u v s hpair ih =>
    rw [codePoints, if_neg hpair, List.flatMap_cons]
    exact (quotePoint_oneLine u).append ih

theorem quote_oneLine (s : JsString) : OneLine (quote s) :=
  (OneLine.append (by decide) (body_oneLine s)).append (by decide)

mutual

theorem stringify_oneLine : (v : Json) → OneLine (stringify v)
  | .null => by decide
  | .bool true => by decide
  | .bool false => by decide
  | .num n => numberText_oneLine n
  | .str s => quote_oneLine s
  | .arr xs =>
    (OneLine.append (by decide) (elements_oneLine xs)).append
      (by decide)
  | .obj ms =>
    (OneLine.append (by decide) (members_oneLine ms)).append
      (by decide)

theorem elements_oneLine : (xs : List Json) → OneLine (stringifyElements xs)
  | [] => fun u hu => absurd hu List.not_mem_nil
  | [x] => stringify_oneLine x
  | x :: y :: rest =>
    ((stringify_oneLine x).append (by decide)).append
      (elements_oneLine (y :: rest))

theorem members_oneLine : (ms : List (JsString × Json)) → OneLine (stringifyMembers ms)
  | [] => fun u hu => absurd hu List.not_mem_nil
  | [(k, x)] =>
    ((quote_oneLine k).append (by decide)).append (stringify_oneLine x)
  | (k, x) :: y :: rest =>
    ((((quote_oneLine k).append (by decide)).append
      (stringify_oneLine x)).append (by decide)).append
      (members_oneLine (y :: rest))

end

theorem Reads.unique {text : JsString} {v w : Json} (hv : Reads text v) (hw : Reads text w) :
    v = w := by
  have hnil : Delimited [] := fun u hu => by cases hu
  have heq := (hv.reads text.length [] (Nat.le_refl _) hnil).symm.trans
    (hw.reads text.length [] (Nat.le_refl _) hnil)
  exact (Prod.mk.inj (Option.some.inj heq)).1

/-- A number is read as a number, or as `null` when it is infinite. -/
theorem reads_number_kind (n : Number) :
    Reads (numberText n) .null ∨ ∃ m, Reads (numberText n) (.num m) := by
  rcases numberText_cases n with h | h | ⟨s, h, htext⟩
  · exact .inl (h ▸ reads_null)
  · exact .inr (reads_numeral h)
  · exact .inr (htext ▸ reads_negative h)

/-- Only a string is read as a string. -/
theorem reads_str_iff {x : Json} {s : JsString} :
    Reads (stringify x) (.str s) ↔ x = .str s := by
  constructor
  · intro h
    cases x with
    | null => cases h.unique reads_null
    | bool b => cases h.unique (reads_bool b)
    | num n =>
      rcases reads_number_kind n with hn | ⟨m, hn⟩
      · cases h.unique hn
      · cases h.unique hn
    | str t => exact h.unique (reads_quote t) ▸ rfl
    | arr xs =>
      obtain ⟨ys, hys⟩ := elements_partners xs
      cases h.unique (reads_array hys)
    | obj ms =>
      obtain ⟨ns, hns⟩ := members_partners ms
      cases h.unique (reads_object hns)
  · rintro rfl
    exact reads_quote s

/-- Only an object is parsed as an object. -/
theorem eq_obj_of_parse {x : Json} {fields : List (JsString × Json)}
    (h : parse (stringify x) = .ok (.obj fields)) : ∃ ms, x = .obj ms := by
  have hkind : ∀ {w}, Reads (stringify x) w → w = .obj fields :=
    fun hw => Except.ok.inj (hw.parse.symm.trans h)
  cases x with
  | null => cases hkind reads_null
  | bool b => cases hkind (reads_bool b)
  | num n =>
    rcases reads_number_kind n with hn | ⟨m, hn⟩
    · cases hkind hn
    · cases hkind hn
  | str t => cases hkind (reads_quote t)
  | arr xs =>
    obtain ⟨ys, hys⟩ := elements_partners xs
    cases hkind (reads_array hys)
  | obj ms => exact ⟨ms, rfl⟩

theorem lookup_assignAll_of_not_mem {key : JsString} {ns : List (JsString × Json)}
    (h : ∀ y, (key, y) ∉ ns) (fields : List (JsString × Json)) :
    lookup key (assignAll ns fields) = lookup key fields := by
  induction ns generalizing fields with
  | nil => rfl
  | cons n ns ih =>
    have hne : n.1 ≠ key := by
      rintro rfl
      exact h n.2 List.mem_cons_self
    rw [assignAll, List.foldl_cons, ← assignAll, ih fun y hy => h y (List.mem_cons_of_mem _ hy)]
    exact lookup_assign_of_ne hne _ _

/-- A key with one value has this value in the object. -/
theorem lookup_assignAll_of_mem {key : JsString} {y : Json} {ns : List (JsString × Json)}
    (hmem : (key, y) ∈ ns) (honly : ∀ z, (key, z) ∈ ns → z = y)
    (fields : List (JsString × Json)) : lookup key (assignAll ns fields) = some y := by
  induction ns generalizing fields with
  | nil => cases hmem
  | cons n ns ih =>
    rw [assignAll, List.foldl_cons, ← assignAll]
    by_cases hlater : (key, y) ∈ ns
    · exact ih hlater (fun z hz => honly z (List.mem_cons_of_mem _ hz)) _
    · have hnone : ∀ z, (key, z) ∉ ns := fun z hz =>
        hlater (honly z (List.mem_cons_of_mem _ hz) ▸ hz)
      rw [lookup_assignAll_of_not_mem hnone]
      rcases List.mem_cons.mp hmem with rfl | hmem
      · exact lookup_assign_self _ _ _
      · exact absurd hmem hlater

theorem partner_of_mem {ms ns : List (JsString × Json)} (h : ReadsMembers ms ns) {key : JsString}
    {x : Json} (hmem : (key, x) ∈ ms) : ∃ y, (key, y) ∈ ns ∧ Reads (stringify x) y := by
  obtain ⟨⟨key, y⟩, hy, rfl, hreads⟩ := exists_partner h hmem
  exact ⟨y, hy, hreads⟩

theorem partner_of_read {ms ns : List (JsString × Json)} (h : ReadsMembers ms ns) {key : JsString}
    {y : Json} (hmem : (key, y) ∈ ns) : ∃ x, (key, x) ∈ ms ∧ Reads (stringify x) y := by
  obtain ⟨⟨key, x⟩, hx, rfl, hreads⟩ := exists_partner h.flip hmem
  exact ⟨x, hx, hreads⟩

/-- An object is parsed as one in which a key with one value has a string for its value just when
it was that string. -/
theorem parse_members (ms : List (JsString × Json)) : ∃ fields,
    parse (stringify (.obj ms)) = .ok (.obj fields) ∧
      ∀ key, (∀ x y, (key, x) ∈ ms → (key, y) ∈ ms → x = y) → ∀ s,
        (lookup key fields = some (.str s) ↔ (key, .str s) ∈ ms) := by
  obtain ⟨ns, hns⟩ := members_partners ms
  refine ⟨_, (reads_object hns).parse, fun key honly s => ?_⟩
  have hsame : ∀ y z, (key, y) ∈ ns → (key, z) ∈ ns → z = y := by
    intro y z hy hz
    obtain ⟨x, hx, hxy⟩ := partner_of_read hns hy
    obtain ⟨x', hx', hxz⟩ := partner_of_read hns hz
    obtain rfl := honly x x' hx hx'
    exact hxz.unique hxy
  constructor
  · intro hlookup
    by_cases hmem : ∃ y, (key, y) ∈ ns
    · obtain ⟨y, hy⟩ := hmem
      rw [lookup_assignAll_of_mem hy (hsame y · hy)] at hlookup
      obtain rfl := Option.some.inj hlookup
      obtain ⟨x, hx, hreads⟩ := partner_of_read hns hy
      exact reads_str_iff.mp hreads ▸ hx
    · rw [lookup_assignAll_of_not_mem fun y hy => hmem ⟨y, hy⟩] at hlookup
      cases hlookup
  · intro hmem
    obtain ⟨y, hy, hreads⟩ := partner_of_mem hns hmem
    obtain rfl := hreads.unique (reads_quote s)
    exact lookup_assignAll_of_mem hy (hsame _ · hy) []

end ChatMicroservices.JSON

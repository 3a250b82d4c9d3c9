import ChatMicroservices.JsonLines
import ChatMicroservices.ObjectGraphs

/-!
# Texts of object graphs

`JSON.stringify` returns for the values that unfold to finite trees without a BigInt. Its text
is one line, and it is an object with certain strings as members just when these are what the
properties of the value are written as.
-/

namespace ChatMicroservices.ObjectTexts
open JavaScriptValues InsertionMaps RelatedLists ObjectWalks ObjectGraphs

section

variable {ρ : Type} {call : Calls ρ} {h : Heap ρ} {o : Obj ρ} {v : Val ρ}

/-- The members that are written are those of the properties with a text. -/
theorem mem_build {f : JsString × Val ρ → Except JsError Written} {ts : List Written}
    (hts : List.Forall₂ (fun m t => f m = .ok t) (members o) ts) {key : JsString} {x : Json} :
    (key, x) ∈ ((members o).zip ts).filterMap (fun m => m.2.map (m.1.1, ·)) ↔
      ∃ w, (key, w) ∈ members o ∧ f (key, w) = .ok (some x) := by
  rw [List.mem_filterMap]
  constructor
  · rintro ⟨⟨m, t⟩, hmem, hm⟩
    obtain ⟨y, rfl, heq⟩ := Option.map_eq_some_iff.mp hm
    obtain ⟨rfl, rfl⟩ := Prod.mk.inj heq
    exact ⟨m.2, (List.of_mem_zip hmem).1, List.forall₂_zip hts hmem⟩
  · rintro ⟨w, hw, hf⟩
    obtain ⟨t, hmem⟩ := exists_mem_zip hts hw
    obtain rfl := Except.ok.inj (hf.symm.trans (List.forall₂_zip hts hmem))
    exact ⟨_, hmem, rfl⟩

/-- The key is not that of an index property. -/
def IsName (key : JsString) : Prop := ∃ u ∈ key, JSON.isDigit u = false

theorem members_of_not_array (hkind : o.kind ≠ .array) : members o = o.own := by
  unfold members
  split
  next harray => exact absurd harray hkind
  next => rfl

theorem build_of_not_array (hkind : o.kind ≠ .array) (ts : List Written) : build o ts =
    some (.obj (((members o).zip ts).filterMap fun m => m.2.map (m.1.1, ·))) := by
  unfold build
  split
  next harray => exact absurd harray hkind
  next => rfl

theorem build_of_array (hkind : o.kind = .array) (ts : List Written) :
    build o ts = some (.arr (ts.map (·.getD .null))) := by
  unfold build
  rw [hkind]

theorem mem_members (hkind : o.kind ≠ .array) {key : JsString} (hkey : IsName key) {w : Val ρ} :
    (key, w) ∈ members o ↔ o.named.get key = some w := by
  rw [members_of_not_array hkind, Obj.own, List.mem_append, InsertionMap.get_eq_some]
  refine or_iff_right fun hindex => ?_
  obtain ⟨e, -, heq⟩ := List.mem_map.mp hindex
  obtain ⟨rfl, -⟩ := Prod.mk.inj heq
  obtain ⟨u, hu, hdigit⟩ := hkey
  rw [(JSON.digits_natText e.2).2 u hu] at hdigit
  cases hdigit

/-- The property is written as the string. -/
def WrittenAs (call : Calls ρ) (h : Heap ρ) (key : JsString) (w : Val ρ) (s : JsString) : Prop :=
  lookConverted h (converted call h key w) = .leaf (some (.str s))

theorem lookConverted_ne_object (w : Val ρ) (ms : List (JsString × Json)) :
    lookConverted h w ≠ .leaf (some (.obj ms)) := by
  have hdata : ∀ d, lookData d ≠ (.leaf (some (.obj ms)) : Look ρ Written JsError) := by
    intro d
    match d with
    | .bool _ | .number none | .number (some _) | .bigint _ | .str _ => simp [lookData]
  cases w with
  | undefined | null | symbol => simp [lookConverted]
  | data d => exact hdata d
  | object r =>
    simp only [lookConverted]
    split
    · simp
    · exact hdata _
    · simp

variable [DecidableEq ρ]

theorem walk_string_iff {fuel : ℕ} {stack : List ρ} {key s : JsString} {w : Val ρ} :
    (jsonGraph call h).walk (fuel + 1) stack (key, w) = .ok (some (.str s)) ↔
      WrittenAs call h key w s := by
  rw [Graph.walk_eq_ok]
  refine or_iff_left ?_
  rintro ⟨r, ts, -, -, -, heq⟩
  change some (Json.str s) = build (h r) ts at heq
  by_cases hkind : (h r).kind = .array
  · rw [build_of_array hkind] at heq
    cases heq
  · rw [build_of_not_array hkind] at heq
    cases heq

/-- A line that is an object with these members. -/
def WellFormed (required : List (JsString × JsString)) (line : JsString) : Prop :=
  JSON.OneLine line ∧ ∃ fields, JSON.parse line = .ok (.obj fields) ∧
    ∀ f ∈ required, lookup f.1 fields = some (.str f.2)

/-- The value is written as an object with these members. -/
def Keeps (call : Calls ρ) (h : Heap ρ) (required : List (JsString × JsString)) (v : Val ρ) :
    Prop :=
  ∃ r, lookConverted h (converted call h [] v) = .node r ∧ (h r).kind ≠ .array ∧
    ∀ f ∈ required, ∃ w, (h r).named.get f.1 = some w ∧ WrittenAs call h f.1 w f.2

/-- The text of an object has a string for a member just when the property is written as it. -/
theorem parse_object {r : ρ} {ts : List Written} {fuel : ℕ} {stack : List ρ}
    (hkind : (h r).kind ≠ .array)
    (hts : List.Forall₂ (fun m t => (jsonGraph call h).walk (fuel + 1) stack m = .ok t)
      (members (h r)) ts) : ∃ json fields, build (h r) ts = some json ∧
        JSON.parse (JSON.stringify json) = .ok (.obj fields) ∧
          ∀ key, IsName key → ∀ s, (lookup key fields = some (.str s) ↔
            ∃ w, (h r).named.get key = some w ∧ WrittenAs call h key w s) := by
  obtain ⟨fields, hparse, hlookup⟩ := JSON.parse_members
    (((members (h r)).zip ts).filterMap fun m => m.2.map (m.1.1, ·))
  refine ⟨_, fields, build_of_not_array hkind ts, hparse, fun key hkey s => ?_⟩
  have honly : ∀ x y,
      (key, x) ∈ ((members (h r)).zip ts).filterMap (fun m => m.2.map (m.1.1, ·)) →
      (key, y) ∈ ((members (h r)).zip ts).filterMap (fun m => m.2.map (m.1.1, ·)) → x = y := by
    intro x y hx hy
    obtain ⟨w, hw, hwx⟩ := (mem_build hts).mp hx
    obtain ⟨w', hw', hwy⟩ := (mem_build hts).mp hy
    rw [mem_members hkind hkey] at hw hw'
    obtain rfl := Option.some.inj (hw.symm.trans hw')
    exact Option.some.inj (Except.ok.inj (hwx.symm.trans hwy))
  rw [hlookup key honly s, mem_build hts]
  refine exists_congr fun w => ?_
  rw [mem_members hkind hkey, walk_string_iff]

variable [Fintype ρ]

/-- What is written for an object that is no array. -/
theorem jsonOf_object {w : Written} (hw : jsonOf call h v = .ok w) {r : ρ}
    (hnode : lookConverted h (converted call h [] v) = .node r) (hkind : (h r).kind ≠ .array) :
    ∃ json fields, w = some json ∧ JSON.parse (JSON.stringify json) = .ok (.obj fields) ∧
      ∀ key, IsName key → ∀ s, (lookup key fields = some (.str s) ↔
        ∃ w, (h r).named.get key = some w ∧ WrittenAs call h key w s) := by
  rcases Graph.walk_eq_ok.mp hw with hleaf | ⟨r', ts, hlook, -, hts, rfl⟩
  · cases hnode.symm.trans hleaf
  · cases hnode.symm.trans hlook
    obtain ⟨n, hn⟩ : ∃ n, Fintype.card ρ = n + 1 :=
      ⟨Fintype.card ρ - 1, by have := Fintype.card_pos_iff.mpr ⟨r⟩; omega⟩
    rw [hn] at hts
    exact parse_object hkind hts

/-- The value is written as a well-formed line just when it unfolds and has the members. -/
theorem stringify_wellFormed_iff {required : List (JsString × JsString)}
    (hrequired : ∀ f ∈ required, IsName f.1) :
    (∃ line, stringify call h v = .ok (some line) ∧ WellFormed required line) ↔
      (jsonGraph call h).Unfolds ([], v) ∧ Keeps call h required v := by
  constructor
  · rintro ⟨line, hline, -, fields, hparse, hfields⟩
    refine ⟨stringify_ok_iff.mp ⟨_, hline⟩, ?_⟩
    unfold stringify at hline
    cases hw : jsonOf call h v with
    | error e =>
      rw [hw] at hline
      cases hline
    | ok w =>
      rw [hw] at hline
      obtain ⟨json, rfl, rfl⟩ := Option.map_eq_some_iff.mp (Except.ok.inj hline)
      obtain ⟨ms, rfl⟩ := JSON.eq_obj_of_parse hparse
      rcases Graph.walk_eq_ok.mp hw with hleaf | ⟨r, ts, hnode, -, -, hbuild⟩
      · exact absurd hleaf (lookConverted_ne_object _ ms)
      have hkind : (h r).kind ≠ .array := by
        intro harray
        change some (Json.obj ms) = build (h r) ts at hbuild
        rw [build_of_array harray] at hbuild
        cases hbuild
      obtain ⟨json, fields', hjson, hparse', hlookup⟩ := jsonOf_object hw hnode hkind
      obtain rfl := Option.some.inj hjson
      cases hparse.symm.trans hparse'
      exact ⟨r, hnode, hkind, fun f hf => (hlookup f.1 (hrequired f hf) f.2).mp (hfields f hf)⟩
  · rintro ⟨hunfolds, r, hnode, hkind, hkeeps⟩
    obtain ⟨w, hw⟩ := Graph.walk_iff.mpr hunfolds
    obtain ⟨json, fields, rfl, hparse, hlookup⟩ := jsonOf_object hw hnode hkind
    refine ⟨JSON.stringify json, ?_, JSON.stringify_oneLine json, fields, hparse, fun f hf => ?_⟩
    · rw [stringify, jsonOf, hw]
      rfl
    · exact (hlookup f.1 (hrequired f hf) f.2).mpr (hkeeps f hf)

end

end ChatMicroservices.ObjectTexts

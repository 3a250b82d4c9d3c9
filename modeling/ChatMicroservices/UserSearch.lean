import ChatMicroservices.AuthController
import ChatMicroservices.LikePatterns
import ChatMicroservices.StoredTexts
import Mathlib.Data.List.Perm.Subperm

/-!
# User search

The search term is put between two `%` into an `ILIKE` pattern. What a user types as `%`, `_`
or `\` keeps its meaning in the pattern, so the search is one for a literal text only if the
term has none of them.
-/

namespace ChatMicroservices.UserSearch
open JavaScriptValues JavaScriptOperators UsersTable LikePatterns StoredTexts
open AuthValidation (isUpperCase)
open AuthController (lowerLetter)

/-- An element of the answer; its first field is `_id`. -/
structure Found where
  id : JsString
  username : JsString
  email : JsString

def found (u : User) : Found := ⟨u.id, u.username, u.email⟩

def searchTerm (q : JsString) : JsString := js "%" ++ trim q ++ js "%"

/-- The data of the answer. A parameter that is not a text has no `trim`; that error and those
of the query are caught. -/
def search (query : JsString → JsString → Except JsError (List User)) (currentUserId : JsString) :
    Value → List Found
  | .json (.str q) =>
    if q = [] ∨ trim q = [] then []
    else
      match query currentUserId (searchTerm q) with
      | .ok users => users.map found
      | .error _ => []
  | _ => []

/-- The characters of a text in the database. -/
def characters (s : JsString) : List JsString := (codePoints s).map encoded

/-- A character other than a lone surrogate. -/
def IsCharacter (c : JsString) : Prop :=
  (∃ u, c = [u] ∧ ¬ isHigh u ∧ ¬ isLow u) ∨ ∃ u v, c = [u, v] ∧ isHigh u ∧ isLow v

theorem codePoints_cons {u : UInt16} (hu : ¬ isHigh u) (s : JsString) :
    codePoints (u :: s) = [u] :: codePoints s := by
  cases s with
  | nil => rfl
  | cons v s =>
    rw [codePoints, if_neg]
    rintro ⟨h, -⟩
    exact hu (by simpa [isHigh] using h)

theorem codePoints_concat {v : UInt16} (hv : ¬ isLow v) (s : JsString) :
    codePoints (s ++ [v]) = codePoints s ++ [[v]] := by
  induction s using codePoints.induct with
  | case1 => rfl
  | case2 u =>
    rw [List.singleton_append, codePoints, codePoints, if_neg]
    · rfl
    · rintro ⟨-, h⟩
      exact hv (by simpa [isLow] using h)
  | case3 u w rest hpair ih =>
    rw [List.cons_append, List.cons_append, codePoints, if_pos hpair, ih, codePoints,
      if_pos hpair, List.cons_append]
  | case4 u w rest hpair ih =>
    rw [List.cons_append, List.cons_append, codePoints, if_neg hpair, ← List.cons_append, ih,
      codePoints, if_neg hpair, List.cons_append]

theorem isCharacter_of_mem {s c : JsString} (hc : c ∈ characters s) : IsCharacter c := by
  obtain ⟨point, hpoint, rfl⟩ := List.mem_map.mp hc
  have hsingle : ∀ u, IsCharacter (encoded [u]) := by
    intro u
    simp only [encoded]
    split_ifs with hu
    · exact .inl ⟨0xFFFD, rfl, by decide, by decide⟩
    · exact .inl ⟨u, rfl, by simpa [not_or] using hu⟩
  induction s using codePoints.induct with
  | case1 => cases hpoint
  | case2 u =>
    obtain rfl := List.mem_singleton.mp hpoint
    exact hsingle u
  | case3 u v rest hpair ih =>
    rw [codePoints, if_pos hpair] at hpoint
    rcases List.mem_cons.mp hpoint with rfl | hpoint
    · exact .inr ⟨u, v, rfl, by simpa [isHigh] using hpair.1, by simpa [isLow] using hpair.2⟩
    · exact ih hpoint (List.mem_map_of_mem hpoint)
  | case4 u v rest hpair ih =>
    rw [codePoints, if_neg hpair] at hpoint
    rcases List.mem_cons.mp hpoint with rfl | hpoint
    · exact hsingle u
    · exact ih hpoint (List.mem_map_of_mem hpoint)

theorem characters_flatten {cs : List JsString} (hcs : ∀ c ∈ cs, IsCharacter c) :
    characters cs.flatten = cs := by
  induction cs with
  | nil => rfl
  | cons c cs ih =>
    obtain ⟨hc, hrest⟩ := List.forall_mem_cons.mp hcs
    rw [List.flatten_cons]
    rcases hc with ⟨u, rfl, hhigh, hlow⟩ | ⟨u, v, rfl, hu, hv⟩
    · rw [characters, List.singleton_append, codePoints_cons hhigh, List.map_cons]
      rw [← characters, ih hrest, encoded, if_neg (by simp [hhigh, hlow])]
    · have hpair : (0xD800 ≤ u ∧ u ≤ 0xDBFF) ∧ 0xDC00 ≤ v ∧ v ≤ 0xDFFF := by
        simpa [isHigh, isLow] using And.intro hu hv
      rw [characters, List.cons_append, List.singleton_append, codePoints, if_pos hpair,
        List.map_cons, ← characters, ih hrest]
      rfl

def metacharacters : Metacharacters JsString where
  any := js "%"
  one := js "_"
  escape := js "\\"
  any_ne_escape := by decide

/-- The letter case that `ILIKE` ignores. -/
structure CaseFolding where
  fold : JsString → JsString
  fixes : Fixes metacharacters fold

section Query

variable (case : CaseFolding)

def folded (s : JsString) : List JsString := (characters s).map case.fold

/-- The tokens of a pattern, if it is valid. -/
def pattern (term : JsString) : Option (List (Token JsString)) :=
  tokens metacharacters (folded case term)

def ilike (text term : JsString) : Bool :=
  (pattern case term).any fun p => Matches p (folded case text)

/-- `user.id != :currentUserId AND (user.username ILIKE … OR user.email ILIKE …)` -/
def Selected (currentUserId term : JsString) (u : User) : Prop :=
  u.id ≠ currentUserId ∧ (ilike case u.username term ∨ ilike case u.email term)

instance (currentUserId term : JsString) (u : User) :
    Decidable (Selected case currentUserId term u) := inferInstanceAs (Decidable (_ ∧ (_ ∨ _)))

def selected (table : Table) (currentUserId term : JsString) : List User :=
  table.rows.filter fun u => Selected case currentUserId term u

/-- What the query can return: any 20 of the selected users, or all of them, in any order. It
fails for an invalid pattern. -/
def Answers (table : Table) (currentUserId term : JsString) : Except JsError (List User) → Prop
  | .ok users => (pattern case term).isSome ∧
      users.Subperm (selected case table currentUserId term) ∧
      users.length = min 20 (selected case table currentUserId term).length
  | .error _ => pattern case term = none

/-- The username or the e-mail address contains the text, up to letter case. -/
def Contains (t : JsString) (u : User) : Prop :=
  folded case t <:+: folded case u.username ∨ folded case t <:+: folded case u.email

instance (t : JsString) (u : User) : Decidable (Contains case t u) :=
  inferInstanceAs (Decidable (_ ∨ _))

/-- The other users who contain the text. -/
def literal (table : Table) (currentUserId t : JsString) : List User :=
  table.rows.filter fun u => u.id ≠ currentUserId ∧ Contains case t u

/-- An answer of a search for a literal text. -/
structure LiteralAnswer (table : Table) (currentUserId t : JsString) (data : List Found) :
    Prop where
  length_le : data.length ≤ 20
  sound : ∀ answer ∈ data, ∃ u ∈ literal case table currentUserId t, answer = found u
  complete : (literal case table currentUserId t).length ≤ 20 →
    ∀ u ∈ literal case table currentUserId t, found u ∈ data

/-- Whatever the database answers, the search is one for the literal text. -/
def SearchesLiterally (table : Table) (currentUserId q : JsString) : Prop :=
  ∀ answer, Answers case table currentUserId (searchTerm q) answer →
    LiteralAnswer case table currentUserId (trim q)
      (search (fun _ _ => answer) currentUserId (.json (.str q)))

variable {case}

theorem folded_searchTerm (q : JsString) : folded case (searchTerm q) =
    metacharacters.any :: (folded case (trim q) ++ [metacharacters.any]) := by
  have hany : case.fold (js "%") = js "%" := (case.fixes.any _).mpr rfl
  have hpercent : js "%" = [0x25] := rfl
  simp only [folded, characters, searchTerm, hpercent] at hany ⊢
  rw [List.append_assoc, List.singleton_append, codePoints_cons (by decide),
    codePoints_concat (by decide)]
  simp only [List.map_cons, List.map_append, List.map_nil]
  have hencoded : encoded [0x25] = [0x25] := by decide
  rw [hencoded, hany]
  rfl

theorem pattern_searchTerm (q : JsString) : pattern case (searchTerm q) =
    (tokens metacharacters (folded case (trim q) ++ [metacharacters.any])).map (.any :: ·) := by
  rw [pattern, folded_searchTerm, tokens_any]

theorem filler_ne_one : js "a" ≠ metacharacters.one := by decide

variable (case) in
theorem fold_filler_ne_one : case.fold (js "a") ≠ metacharacters.one :=
  fun h => filler_ne_one ((case.fixes.one _).mp h)

theorem pattern_isSome (q : JsString) : (pattern case (searchTerm q)).isSome := by
  obtain ⟨p, hp, -⟩ := exists_samples (fold_filler_ne_one case) (folded case (trim q))
  rw [pattern_searchTerm, hp]
  rfl

/-- The term has no character with a meaning in patterns. -/
def Plain (t : JsString) : Prop := ∀ c ∈ characters t, ¬ IsMeta metacharacters c

instance (t : JsString) : Decidable (Plain t) :=
  inferInstanceAs (Decidable (∀ c ∈ characters t, ¬ IsMeta metacharacters c))

theorem plain_iff (t : JsString) :
    (∀ c ∈ folded case t, ¬ IsMeta metacharacters c) ↔ Plain t := by
  simp only [folded, List.forall_mem_map, case.fixes.isMeta]
  rfl

theorem ilike_iff_of_plain {q : JsString} (hq : Plain (trim q)) (text : JsString) :
    ilike case text (searchTerm q) ↔ folded case (trim q) <:+: folded case text := by
  have htokens : tokens metacharacters (folded case (trim q) ++ [metacharacters.any]) =
      some ((folded case (trim q)).map .char ++ [.any]) := by
    rw [tokens_plain ((plain_iff _).mpr hq), tokens_any]
    rfl
  rw [ilike, pattern_searchTerm, htokens]
  exact matches_substring _ _

variable (case) in
/-- A text that the pattern matches, and that contains the term only if it is plain. -/
theorem exists_matching (q : JsString) : ∃ text, ilike case text (searchTerm q) ∧
    (folded case (trim q) <:+: folded case text → Plain (trim q)) := by
  obtain ⟨p, hp, hsamples⟩ :=
    exists_samples (fold_filler_ne_one case) (folded case (trim q))
  -- The sample is the folded form of a text.
  obtain ⟨p', hp', rfl⟩ : ∃ p', tokens metacharacters
      (characters (trim q) ++ [metacharacters.any]) = some p' ∧
        p'.map (Token.map case.fold) = p := by
    have hmap := case.fixes.tokens (characters (trim q) ++ [metacharacters.any])
    rw [List.map_append, List.map_singleton, (case.fixes.any _).mpr rfl, ← folded, hp] at hmap
    obtain ⟨p', hp', heq⟩ := Option.map_eq_some_iff.mp hmap.symm
    exact ⟨p', hp', heq⟩
  have hchars : ∀ c ∈ sample (js "a") p', IsCharacter c := by
    intro c hc
    rcases mem_of_sample hp' hc with rfl | hc
    · exact .inl ⟨0x61, rfl, by decide, by decide⟩
    · rcases List.mem_append.mp hc with hc | hc
      · exact isCharacter_of_mem hc
      · obtain rfl := List.mem_singleton.mp hc
        exact .inl ⟨0x25, rfl, by decide, by decide⟩
  have hfolded : folded case (sample (js "a") p').flatten =
      sample (case.fold (js "a")) (p'.map (Token.map case.fold)) := by
    rw [folded, characters_flatten hchars, sample_map]
  refine ⟨(sample (js "a") p').flatten, ?_, fun hsub => ?_⟩
  · rw [ilike, pattern_searchTerm, hp, hfolded]
    exact (matches_any _ _).mpr ⟨[], _, rfl, matches_sample _ _⟩
  · rw [hfolded] at hsub
    exact (plain_iff _).mp (hsamples.plain (hsub.eq_of_length_le hsamples.length_le).symm)

variable {table : Table} {currentUserId term q : JsString}

/-- The database can answer with any user that is selected. -/
theorem exists_answer (hterm : (pattern case term).isSome) {u : User}
    (hu : u ∈ selected case table currentUserId term) :
    ∃ users, Answers case table currentUserId term (.ok users) ∧ u ∈ users := by
  have hperm := List.perm_cons_erase hu
  refine ⟨(u :: (selected case table currentUserId term).erase u).take 20, ⟨hterm, ?_, ?_⟩, ?_⟩
  · exact (List.take_sublist _ _).subperm.trans hperm.symm.subperm
  · rw [List.length_take, ← hperm.length_eq]
  · simp

/-- When there are not more than 20, all users that are selected are in the answer. -/
theorem mem_of_answers {users : List User} (h : Answers case table currentUserId term (.ok users))
    (hlength : (selected case table currentUserId term).length ≤ 20) {u : User}
    (hu : u ∈ selected case table currentUserId term) : u ∈ users := by
  obtain ⟨-, hsubperm, hcount⟩ := h
  rw [Nat.min_eq_right hlength] at hcount
  exact (hsubperm.perm_of_length_le (Nat.le_of_eq hcount.symm)).mem_iff.mpr hu

theorem mem_selected {u : User} : u ∈ selected case table currentUserId term ↔
    u ∈ table.rows ∧ Selected case currentUserId term u := by
  simp [selected]

theorem mem_literal {t : JsString} {u : User} : u ∈ literal case table currentUserId t ↔
    u ∈ table.rows ∧ u.id ≠ currentUserId ∧ Contains case t u := by
  simp [literal]

theorem search_answer (hq : trim q ≠ []) (users : List User) :
    search (fun _ _ => .ok users) currentUserId (.json (.str q)) = users.map found := by
  have hne : q ≠ [] := by
    rintro rfl
    exact hq rfl
  simp [search, hne, hq]

/-- A row of the table is known by what the answer says of it. -/
theorem eq_of_found {u v : User} (hu : u ∈ table.rows) (hv : v ∈ table.rows)
    (h : found u = found v) : u = v :=
  List.inj_on_of_nodup_map table.ids_nodup hu hv (congrArg Found.id h)

theorem contains_of_found {t : JsString} {u v : User} (h : found u = found v)
    (hv : Contains case t v) : Contains case t u := by
  have husername : u.username = v.username := congrArg Found.username h
  have hemail : u.email = v.email := congrArg Found.email h
  rwa [Contains, husername, hemail]

variable (case) in
/-- The users that the pattern matches contain the term, and where not more than 20 of the
others contain it, the pattern matches them. -/
def Agrees (table : Table) (currentUserId q : JsString) : Prop :=
  (∀ u ∈ table.rows, Selected case currentUserId (searchTerm q) u → Contains case (trim q) u) ∧
    ((literal case table currentUserId (trim q)).length ≤ 20 →
      ∀ u ∈ literal case table currentUserId (trim q), Selected case currentUserId (searchTerm q) u)

theorem agrees_of_searchesLiterally (hq : trim q ≠ [])
    (h : SearchesLiterally case table currentUserId q) : Agrees case table currentUserId q := by
  constructor
  · intro u hu hselected
    obtain ⟨users, hanswer, hmem⟩ :=
      exists_answer (pattern_isSome q) (mem_selected.mpr ⟨hu, hselected⟩)
    have hdata := h (.ok users) hanswer
    rw [search_answer hq] at hdata
    obtain ⟨v, hv, hfound⟩ := hdata.sound _ (List.mem_map_of_mem hmem)
    exact contains_of_found hfound (mem_literal.mp hv).2.2
  · intro hlength u hu
    have hanswer : Answers case table currentUserId (searchTerm q)
        (.ok ((selected case table currentUserId (searchTerm q)).take 20)) :=
      ⟨pattern_isSome q, (List.take_sublist _ _).subperm, List.length_take⟩
    have hdata := h _ hanswer
    rw [search_answer hq] at hdata
    obtain ⟨v, hv, hfound⟩ := List.mem_map.mp (hdata.complete hlength u hu)
    obtain ⟨hrow, hselected⟩ := mem_selected.mp (List.mem_of_mem_take hv)
    rwa [← eq_of_found hrow (mem_literal.mp hu).1 hfound]

theorem searchesLiterally_of_agrees (hq : trim q ≠ [])
    (h : Agrees case table currentUserId q) : SearchesLiterally case table currentUserId q := by
  intro answer hanswer
  cases answer with
  | error e =>
    have hsome : (pattern case (searchTerm q)).isSome := pattern_isSome q
    rw [show pattern case (searchTerm q) = none from hanswer] at hsome
    cases hsome
  | ok users =>
    rw [search_answer hq]
    obtain ⟨hsound, hcomplete⟩ := h
    have hsubset : ∀ u ∈ selected case table currentUserId (searchTerm q),
        u ∈ literal case table currentUserId (trim q) := by
      intro u hu
      obtain ⟨hrow, hselected⟩ := mem_selected.mp hu
      exact mem_literal.mpr ⟨hrow, hselected.1, hsound u hrow hselected⟩
    constructor
    · rw [List.length_map, hanswer.2.2]
      exact Nat.min_le_left _ _
    · intro answer hmem
      obtain ⟨u, hu, rfl⟩ := List.mem_map.mp hmem
      exact ⟨u, hsubset u (hanswer.2.1.subset hu), rfl⟩
    · intro hlength u hu
      have hrows : (selected case table currentUserId (searchTerm q)).length ≤ 20 := by
        have hnodup : (selected case table currentUserId (searchTerm q)).Nodup :=
          (List.Nodup.of_map _ table.ids_nodup).filter _
        exact (hnodup.subperm hsubset).length_le.trans hlength
      refine List.mem_map_of_mem (mem_of_answers hanswer hrows ?_)
      exact mem_selected.mpr ⟨(mem_literal.mp hu).1, hcomplete hlength u hu⟩

theorem agrees_of_plain (hplain : Plain (trim q)) : Agrees case table currentUserId q := by
  have hiff : ∀ u, Selected case currentUserId (searchTerm q) u ↔
      u.id ≠ currentUserId ∧ Contains case (trim q) u := by
    intro u
    rw [Selected, ilike_iff_of_plain hplain, ilike_iff_of_plain hplain, Contains]
  exact ⟨fun u _ hu => ((hiff u).mp hu).2, fun _ u hu => (hiff u).mpr (mem_literal.mp hu).2⟩

/-- A table with one user. -/
def single (u : User) : Table where
  rows := [u]
  ids_nodup := List.nodup_singleton _
  usernames_nodup := List.nodup_singleton _
  emails_nodup := List.nodup_singleton _

theorem plain_of_agrees
    (h : ∀ table currentUserId, Agrees case table currentUserId q) : Plain (trim q) := by
  obtain ⟨text, hmatch, hplain⟩ := exists_matching case q
  have hagrees := (h (single ⟨js "u1", text, text, [], 0, 0⟩) (js "u2")).1 _
    (List.mem_singleton.mpr rfl) ⟨by simp; decide, .inl hmatch⟩
  exact hplain (or_self_iff.mp hagrees)

/-- The search for a term is literal on every table just when the term has none of `%`, `_` and
`\`. On one table it is literal just when the pattern selects the users who contain the term;
it may leave them out only when there are more than 20. -/
theorem search_literal_iff (case : CaseFolding) (q : JsString) (hq : trim q ≠ []) :
    ((∀ table currentUserId, SearchesLiterally case table currentUserId q) ↔ Plain (trim q)) ∧
      ∀ table currentUserId,
        SearchesLiterally case table currentUserId q ↔ Agrees case table currentUserId q := by
  have hiff : ∀ table currentUserId,
      SearchesLiterally case table currentUserId q ↔ Agrees case table currentUserId q :=
    fun table currentUserId =>
      ⟨agrees_of_searchesLiterally hq, searchesLiterally_of_agrees hq⟩
  refine ⟨?_, hiff⟩
  simp only [hiff]
  exact ⟨plain_of_agrees, fun hplain table currentUserId => agrees_of_plain hplain⟩

end Query

theorem lowerLetter_eq_iff {v : UInt16} (hv : v < 0x61) (hletter : isUpperCase v = false)
    (u : UInt16) : lowerLetter u = v ↔ u = v := by
  unfold lowerLetter
  split
  next hu =>
    have hne : u ≠ v := by
      rintro rfl
      rw [hu] at hletter
      cases hletter
    simp only [isUpperCase, decide_eq_true_eq, UInt16.le_iff_toNat_le] at hu
    simp only [UInt16.lt_iff_toNat_lt] at hv
    have hlower : u + 0x20 ≠ v := by
      rw [Ne, ← UInt16.toNat_inj, UInt16.toNat_add]
      simp at hu hv ⊢
      omega
    simp [hne, hlower]
  next => rfl

/-- The case of ASCII letters. -/
def asciiFolding : CaseFolding where
  fold := List.map lowerLetter
  fixes := by
    have hfix : ∀ (v : UInt16), v < 0x61 → isUpperCase v = false → ∀ c : JsString,
        c.map lowerLetter = [v] ↔ c = [v] := by
      intro v hv hletter c
      match c with
      | [] => simp
      | [u] => simp [lowerLetter_eq_iff hv hletter]
      | u :: w :: rest => simp
    exact ⟨hfix 0x25 (by decide) (by decide), hfix 0x5F (by decide) (by decide),
      hfix 0x5C (by decide) (by decide)⟩

def alice : User := ⟨js "u1", js "alice", js "alice@example.com", [], 0, 0⟩

/-- A term without metacharacters. -/
theorem alice_searched : SearchesLiterally asciiFolding (single alice) (js "u2") (js " Alice ") :=
  (search_literal_iff asciiFolding (js " Alice ") (by decide)).1.mpr (by decide) _ _

/-- The search for `%` finds a user whose texts have no `%`. -/
theorem percent_searched : ¬ SearchesLiterally asciiFolding (single alice) (js "u2") (js "%") := by
  intro h
  have hagrees := agrees_of_searchesLiterally (by decide) h
  have hcontains := hagrees.1 alice (List.mem_singleton.mpr rfl) (by decide +kernel)
  revert hcontains
  decide +kernel

end ChatMicroservices.UserSearch

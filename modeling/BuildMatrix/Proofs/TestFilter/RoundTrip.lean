import BuildMatrix.Proofs.Text.Cut
import BuildMatrix.TestFilter

/-!
# Reading a rendered filter

A rendered filter is cut again at ` and `. The cuts fall between the terms unless a tag is itself
the word `and` and another term follows it: the first cut then comes right behind a `not`, and
what stands before it is no term.
-/

namespace BuildMatrix.TestFilter

/-! ### Tags -/

/-- What is true of every filter that was built from tags. -/
structure WellFormed (filter : TestFilter) : Prop where
  tags : ∀ tag ∈ filter.excluded, isTag tag.toList
  distinct : filter.excluded.Nodup

theorem insert_distinct {tags : List String} (h : tags.Nodup) (tag : String) :
    (insert tags tag).Nodup := by
  unfold insert
  split
  · exact h
  · next hnew =>
      have hnot : tag ∉ tags := fun hmem => hnew (List.contains_iff_mem.mpr hmem)
      exact List.nodup_append.mpr ⟨h, by simp, fun a ha b hb hab =>
        hnot (List.mem_singleton.mp hb ▸ hab ▸ ha)⟩

theorem mem_insert {tags : List String} {tag other : String} (h : other ∈ insert tags tag) :
    other ∈ tags ∨ other = tag := by
  unfold insert at h
  split at h
  · exact .inl h
  · simpa using h

theorem wellFormed_insertAll {given tags result : List String}
    (hgiven : WellFormed ⟨given⟩) (h : insertAll given tags = .ok result) :
    WellFormed ⟨result⟩ := by
  induction tags generalizing given with
  | nil =>
    simp only [insertAll, Except.ok.injEq] at h
    exact h ▸ hgiven
  | cons tag tags ih =>
    simp only [insertAll] at h
    split at h
    · next htag =>
        refine ih ⟨?_, insert_distinct hgiven.distinct tag⟩ h
        intro other hother
        cases mem_insert hother with
        | inl hmem => exact hgiven.tags other hmem
        | inr he => exact he ▸ htag
    · cases h

theorem wellFormed_of_excluding {tags : List String} {filter : TestFilter}
    (h : excluding tags = .ok filter) : filter.WellFormed := by
  unfold excluding at h
  cases hall : insertAll [] tags with
  | error e =>
    rw [hall] at h
    cases h
  | ok result =>
    rw [hall] at h
    cases h
    exact wellFormed_insertAll ⟨fun _ hmem => absurd hmem List.not_mem_nil, List.nodup_nil⟩ hall

theorem insertAll_eq {given tags : List String} (h : WellFormed ⟨given ++ tags⟩) :
    insertAll given tags = .ok (given ++ tags) := by
  induction tags generalizing given with
  | nil => simp [insertAll]
  | cons tag tags ih =>
    have htag : isTag tag.toList := h.tags tag (by simp)
    have hnew : tag ∉ given := fun hmem =>
      (List.nodup_append.mp h.distinct).2.2 tag hmem tag (by simp) rfl
    have hinsert : insert given tag = given ++ [tag] := by
      rw [insert, if_neg (fun hmem => hnew (List.contains_iff_mem.mp hmem))]
    have happend : given ++ [tag] ++ tags = given ++ tag :: tags := by simp
    rw [insertAll, if_pos htag, hinsert, ih (happend ▸ h), happend]

theorem WellFormed.excluding_eq {filter : TestFilter} (h : filter.WellFormed) :
    excluding filter.excluded = .ok filter := by
  have hall : insertAll [] filter.excluded = .ok filter.excluded := insertAll_eq h
  rw [excluding, hall]
  rfl

theorem isTagChar_of_mem {s : List Char} {c : Char} (h : isTag s) (hc : c ∈ s) : isTagChar c := by
  cases s with
  | nil => cases h
  | cons d s =>
    simp only [isTag, Bool.and_eq_true] at h
    cases List.mem_cons.mp hc with
    | inl he =>
      have hd := h.1
      simp only [isTagHead, Bool.or_eq_true] at hd
      rw [he, isTagChar, Bool.or_eq_true, Char.isAlphanum, Bool.or_eq_true]
      exact hd.imp .inl id
    | inr hmem => exact List.all_eq_true.mp h.2 c hmem

theorem toNat_of_isTagChar {c : Char} (h : isTagChar c) : 48 ≤ c.toNat ∧ c.toNat < 128 := by
  rw [isTagChar, Bool.or_eq_true] at h
  cases h with
  | inl h =>
    change ((decide (c.val ≥ 65 ∧ c.val ≤ 90) || (decide (c.val ≥ 97) && decide (c.val ≤ 122))) ||
      (decide (c.val ≥ 48) && decide (c.val ≤ 57))) = true at h
    simp only [Bool.or_eq_true, Bool.and_eq_true, decide_eq_true_eq, UInt32.le_iff_toNat_le,
      ge_iff_le] at h
    change ((65 ≤ c.toNat ∧ c.toNat ≤ 90) ∨ (97 ≤ c.toNat ∧ c.toNat ≤ 122)) ∨
      (48 ≤ c.toNat ∧ c.toNat ≤ 57) at h
    omega
  | inr h =>
    rw [eq_of_beq h]
    decide

theorem not_isBlank_of_isTagChar {c : Char} (h : isTagChar c) : ¬Text.isBlank c := by
  have hnone : ∀ n < 128, 48 ≤ n →
      ¬Text.blankRanges.any fun r => decide (r.1 ≤ n) && decide (n ≤ r.2) := by decide
  exact hnone c.toNat (toNat_of_isTagChar h).2 (toNat_of_isTagChar h).1

theorem ne_nil_of_isTag {s : List Char} (h : isTag s) : s ≠ [] := by
  intro he
  rw [he] at h
  cases h

theorem space_not_mem {s : List Char} (h : isTag s) : ' ' ∉ s :=
  fun hmem => not_isBlank_of_isTagChar (isTagChar_of_mem h hmem) (by decide)

/-! ### Terms -/

def term (tag : List Char) : List Char := "not ".toList ++ tag

theorem getLast?_term {tag : List Char} (h : isTag tag) {c : Char}
    (hc : (term tag).getLast? = some c) : ¬Text.isBlank c := by
  rw [term, List.getLast?_append_of_ne_nil _ (ne_nil_of_isTag h)] at hc
  exact not_isBlank_of_isTagChar (isTagChar_of_mem h (List.mem_of_getLast? hc))

theorem negatedTag?_term {tag : List Char} (h : isTag tag) : negatedTag? (term tag) = some tag := by
  have hterm : Text.trim (term tag) = term tag := by
    refine Text.trim_eq_self ?_ fun c hc => getLast?_term h hc
    intro c hc
    cases hc
    decide
  have htag : Text.trim tag = tag := Text.trim_eq_self
    (fun c hc => not_isBlank_of_isTagChar (isTagChar_of_mem h (List.mem_of_mem_head? hc)))
    (fun c hc => not_isBlank_of_isTagChar (isTagChar_of_mem h (List.mem_of_getLast? hc)))
  rw [negatedTag?, hterm]
  simp [term, Text.after?, htag]

/-- The cut behind the `not` of a term: only the tag `and` before another term gives one. -/
theorem cut?_term {tag rest : List Char} (h : isTag tag) :
    Text.cut? " and ".toList (term tag ++ " and ".toList ++ rest) =
      if tag = "and".toList then some ("not".toList, "and ".toList ++ rest)
      else some (term tag, rest) := by
  have hnot : ' ' ∉ "not".toList := by decide
  have hspace := space_not_mem h
  have htext : term tag ++ " and ".toList ++ rest =
      "not".toList ++ ' ' :: (tag ++ ' ' :: ("and ".toList ++ rest)) := by simp [term]
  have hafter : Text.after? "and ".toList (tag ++ ' ' :: ("and ".toList ++ rest)) =
      if tag = "and".toList then some ("and ".toList ++ rest) else none :=
    Text.after?_ended (by decide : ' ' ∉ "and".toList) hspace _
  have hnext : Text.cut? " and ".toList (' ' :: ("and ".toList ++ rest)) = some ([], rest) := by
    simp [Text.cut?, Text.after?]
  rw [htext, show " and ".toList = ' ' :: "and ".toList from rfl, Text.cut?_append hnot,
    Text.cut?_front, hafter]
  by_cases hand : tag = "and".toList
  · simp only [if_pos hand, Option.map_some, List.append_nil]
  · rw [if_neg hand, if_neg hand, Text.cut?_append hspace,
      show ' ' :: "and ".toList = " and ".toList from rfl, hnext]
    simp [term]

theorem cut?_last {tag : List Char} (h : isTag tag) :
    Text.cut? " and ".toList (term tag) = none := by
  have hnot : ' ' ∉ "not".toList := by decide
  have hspace := space_not_mem h
  have htext : term tag = "not".toList ++ ' ' :: tag := by simp [term]
  have hafter : Text.after? "and ".toList tag = none :=
    Text.after?_eq_none (a := ' ') (by decide) hspace
  rw [htext, show " and ".toList = ' ' :: "and ".toList from rfl, Text.cut?_append hnot,
    Text.cut?_front, hafter, Text.cut?_eq_none hspace]
  rfl

/-! ### Expressions -/

def expressionText (tags : List (List Char)) : List Char :=
  " and ".toList.intercalate (tags.map term)

theorem expressionText_cons (tag next : List Char) (tags : List (List Char)) :
    expressionText (tag :: next :: tags) =
      term tag ++ " and ".toList ++ expressionText (next :: tags) := by
  simp [expressionText, List.intercalate_cons_cons]

theorem expressionText_ends {tags : List (List Char)} (hne : tags ≠ [])
    (htags : ∀ tag ∈ tags, isTag tag) :
    ∃ before tag, isTag tag ∧ expressionText tags = before ++ term tag := by
  induction tags with
  | nil => exact absurd rfl hne
  | cons tag tags ih =>
    cases tags with
    | nil => exact ⟨[], tag, htags tag (by simp), by simp [expressionText]⟩
    | cons next tags =>
      obtain ⟨before, last, hlast, htext⟩ :=
        ih (by simp) fun other hmem => htags other (List.mem_cons_of_mem tag hmem)
      refine ⟨term tag ++ " and ".toList ++ before, last, hlast, ?_⟩
      rw [expressionText_cons, htext, List.append_assoc _ before]

theorem expressionText_starts {tags : List (List Char)} (hne : tags ≠ []) :
    ∃ rest, expressionText tags = 'n' :: rest := by
  cases tags with
  | nil => exact absurd rfl hne
  | cons tag tags =>
    cases tags with
    | nil => exact ⟨"ot ".toList ++ tag, by simp [expressionText, term]⟩
    | cons next tags => exact ⟨_, expressionText_cons tag next tags⟩

theorem trim_expressionText {tags : List (List Char)} (hne : tags ≠ [])
    (htags : ∀ tag ∈ tags, isTag tag) :
    Text.trim (expressionText tags) = expressionText tags := by
  refine Text.trim_eq_self ?_ ?_
  · intro c hc
    obtain ⟨rest, hrest⟩ := expressionText_starts hne
    rw [hrest] at hc
    cases hc
    decide
  · intro c hc
    obtain ⟨before, tag, htag, htext⟩ := expressionText_ends hne htags
    rw [htext, List.getLast?_append_of_ne_nil _ (by simp [term])] at hc
    exact getLast?_term htag hc

/-- What the terms between the cuts say: nothing if a tag `and` is not the last. -/
theorem mapM_negatedTag?_splitOn {tags : List (List Char)} (hne : tags ≠ [])
    (htags : ∀ tag ∈ tags, isTag tag) :
    (Text.splitOn " and ".toList (expressionText tags)).mapM negatedTag? =
      if "and".toList ∈ tags.dropLast then none else some tags := by
  induction tags with
  | nil => exact absurd rfl hne
  | cons tag tags ih =>
    have htag : isTag tag := htags tag (by simp)
    cases tags with
    | nil =>
      have htext : expressionText [tag] = term tag := by simp [expressionText]
      rw [htext, Text.splitOn_eq, cut?_last htag]
      simp [negatedTag?_term htag]
    | cons next tags =>
      have hrest := ih (by simp) fun other hmem => htags other (List.mem_cons_of_mem tag hmem)
      rw [expressionText_cons, Text.splitOn_eq, cut?_term htag]
      by_cases hand : tag = "and".toList
      -- The cut falls before the tag and leaves the lone word `not`, which is no term.
      · have hnot : negatedTag? "not".toList = none := by decide
        simp only [hand, List.mapM_cons, hnot, List.dropLast_cons_cons,
          List.mem_cons_self, if_true]
        rfl
      · have hmem : "and".toList ∈ (tag :: next :: tags).dropLast ↔
            "and".toList ∈ (next :: tags).dropLast := by
          rw [List.dropLast_cons_cons, List.mem_cons]
          exact or_iff_right (Ne.symm hand)
        simp only [if_neg hand, List.mapM_cons, negatedTag?_term htag, hrest, hmem]
        split
        · rfl
        · rfl

theorem toList_expression (tags : List String) :
    (Text.joinWith " and " (tags.map fun tag => "not " ++ tag)).toList =
      expressionText (tags.map String.toList) := by
  simp [Text.joinWith, expressionText, term, String.toList_intercalate, Function.comp_def]

/--
A filter is read back from its marker expression unless one of its tags is the word `and` and
another tag follows. The expression is then refused.
-/
theorem WellFormed.parse_eq {filter : TestFilter} (h : filter.WellFormed) :
    parse (filter.expression?.getD "") =
      if "and" ∈ filter.excluded.dropLast then .error (.unsupported (filter.expression?.getD ""))
      else .ok filter := by
  by_cases hempty : filter.excluded = []
  · have hfilter : filter = everything := by
      cases filter
      simp_all [everything]
    rw [hfilter]
    decide
  · have hexpression : filter.expression?.getD "" =
        Text.joinWith " and " (filter.excluded.map fun tag => "not " ++ tag) := by
      simp [expression?, hempty]
    have hne : filter.excluded.map String.toList ≠ [] := by simpa using hempty
    have htags : ∀ tag ∈ filter.excluded.map String.toList, isTag tag := by
      intro tag hmem
      obtain ⟨text, htext, rfl⟩ := List.mem_map.mp hmem
      exact h.tags text htext
    have hmem : "and".toList ∈ (filter.excluded.map String.toList).dropLast ↔
        "and" ∈ filter.excluded.dropLast := by
      rw [← List.map_dropLast, List.mem_map]
      constructor
      · intro hand
        obtain ⟨tag, htag, he⟩ := hand
        exact String.toList_injective he ▸ htag
      · exact fun hand => ⟨"and", hand, rfl⟩
    have hstart : (expressionText (filter.excluded.map String.toList)).isEmpty = false := by
      obtain ⟨rest, hrest⟩ := expressionText_starts hne
      rw [hrest]
      rfl
    have hrendered : String.ofList (expressionText (filter.excluded.map String.toList)) =
        Text.joinWith " and " (filter.excluded.map fun tag => "not " ++ tag) := by
      rw [← toList_expression, String.ofList_toList]
    have hback : (filter.excluded.map String.toList).map String.ofList = filter.excluded := by
      simp [Function.comp_def]
    rw [hexpression, parse, toList_expression, trim_expressionText hne htags]
    simp only [hstart, Bool.false_eq_true, if_false, mapM_negatedTag?_splitOn hne htags, hmem,
      hrendered]
    by_cases hand : "and" ∈ filter.excluded.dropLast
    · simp only [if_pos hand]
    · simp only [if_neg hand, hback, h.excluding_eq]

/--
The filter of accepted tags is read back from its marker expression, with the same tags in the
same order, unless the word `and` is one of its tags and not the last. The expression is then
refused.
-/
theorem parse_expression_of_excluding {tags : List String} {filter : TestFilter}
    (h : excluding tags = .ok filter) :
    parse (filter.expression?.getD "") =
      if "and" ∈ filter.excluded.dropLast then .error (.unsupported (filter.expression?.getD ""))
      else .ok filter :=
  (wellFormed_of_excluding h).parse_eq

/-- The word `and` is a tag, and the filter of it and another tag is not read back. -/
theorem parse_and_slow :
    ¬∀ (tags : List String) (filter : TestFilter), excluding tags = .ok filter →
      parse (filter.expression?.getD "") = .ok filter := by
  intro hall
  have htags : excluding ["and", "slow"] = .ok ⟨["and", "slow"]⟩ := by decide
  have hread := hall _ _ htags
  rw [(wellFormed_of_excluding htags).parse_eq, if_pos (by decide)] at hread
  cases hread

theorem parse_slow_and :
    excluding ["slow", "slow", "and"] = .ok ⟨["slow", "and"]⟩ ∧
      parse "not slow and not and" = .ok ⟨["slow", "and"]⟩ := by
  have htags : excluding ["slow", "slow", "and"] = .ok ⟨["slow", "and"]⟩ := by decide
  have hexpression : (⟨["slow", "and"]⟩ : TestFilter).expression?.getD "" =
      "not slow and not and" := by decide
  have hread := parse_expression_of_excluding htags
  rw [hexpression, if_neg (by decide)] at hread
  exact ⟨htags, hread⟩

end BuildMatrix.TestFilter

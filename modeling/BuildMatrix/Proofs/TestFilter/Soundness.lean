import BuildMatrix.Proofs.TestFilter.RoundTrip

/-!
# What a marker expression says

An expression that is read as a filter consists of the words `not a and not b`, whatever blank
characters stand between and around them, and the filter deselects the tests that carry one of
`a`, `b`. Reading cuts at texts and not at words, so this has to be said of the words of each part.
-/

namespace BuildMatrix

namespace Text

def words (s : List Char) : List (List Char) :=
  (s.splitOnP isBlank).filter fun word => !word.isEmpty

theorem words_nil : words [] = [] := rfl

theorem words_append {c : Char} (hc : isBlank c) (s t : List Char) :
    words (s ++ c :: t) = words s ++ words t := by
  rw [words, List.splitOnP_append_cons s t hc, List.filter_append]
  rfl

theorem words_cons {c : Char} (hc : isBlank c) (s : List Char) : words (c :: s) = words s :=
  words_append hc [] s

theorem words_of_not_blank {s : List Char} (hne : s ≠ []) (h : ∀ c ∈ s, ¬isBlank c) :
    words s = [s] := by
  have hsplit : s.splitOnP isBlank = [s] :=
    List.splitOnP_eq_singleton fun c hc => Bool.eq_false_iff.mpr (h c hc)
  rw [words, hsplit]
  simp [hne]

theorem words_of_blank {s : List Char} (h : ∀ c ∈ s, isBlank c) : words s = [] := by
  induction s with
  | nil => exact words_nil
  | cons c s ih =>
    rw [words_cons (h c List.mem_cons_self)]
    exact ih fun d hd => h d (List.mem_cons_of_mem c hd)

theorem words_append_blank {t : List Char} (h : ∀ c ∈ t, isBlank c) (s : List Char) :
    words (s ++ t) = words s := by
  cases t with
  | nil => rw [List.append_nil]
  | cons c t =>
    rw [words_append (h c List.mem_cons_self),
      words_of_blank fun d hd => h d (List.mem_cons_of_mem c hd), List.append_nil]

theorem words_trimStart (s : List Char) : words (trimStart s) = words s := by
  induction s with
  | nil => rfl
  | cons c s ih =>
    rw [trimStart, List.dropWhile_cons]
    split
    · next hc => rw [words_cons hc]; exact ih
    · rfl

theorem words_trimEnd (s : List Char) : words (trimEnd s) = words s := by
  have hsplit : s = trimEnd s ++ (s.reverse.takeWhile isBlank).reverse := by
    rw [trimEnd, ← List.reverse_append, List.takeWhile_append_dropWhile, List.reverse_reverse]
  have hblank : ∀ c ∈ (s.reverse.takeWhile isBlank).reverse, isBlank c := by
    intro c hc
    exact List.all_eq_true.mp List.all_takeWhile c (List.mem_reverse.mp hc)
  conv_rhs => rw [hsplit]
  exact (words_append_blank hblank _).symm

theorem words_trim (s : List Char) : words (trim s) = words s := by
  rw [trim, words_trimEnd, words_trimStart]

end Text

namespace TestFilter

open Text (words)

/-! ### Words of terms -/

def spelled (tags : List (List Char)) : List (List Char) :=
  ["and".toList].intercalate (tags.map fun tag => ["not".toList, tag])

theorem spelled_cons (tag next : List Char) (tags : List (List Char)) :
    spelled (tag :: next :: tags) =
      "not".toList :: tag :: "and".toList :: spelled (next :: tags) := by
  simp [spelled, List.intercalate_cons_cons]

theorem spelled_injective : Function.Injective spelled := by
  intro tags
  induction tags with
  | nil =>
    intro others h
    cases others with
    | nil => rfl
    | cons other others => cases others <;> simp [spelled, List.intercalate_cons_cons] at h
  | cons tag tags ih =>
    intro others h
    cases tags with
    | nil =>
      cases others with
      | nil => simp [spelled] at h
      | cons other others =>
        cases others with
        | nil => simpa [spelled] using h
        | cons after others => simp [spelled, List.intercalate_cons_cons] at h
    | cons next tags =>
      cases others with
      | nil => simp [spelled, List.intercalate_cons_cons] at h
      | cons other others =>
        cases others with
        | nil => simp [spelled, List.intercalate_cons_cons] at h
        | cons after others =>
          rw [spelled_cons, spelled_cons] at h
          simp only [List.cons.injEq, true_and] at h
          rw [h.1, ih h.2]

theorem words_of_isTag {tag : List Char} (h : isTag tag) : words tag = [tag] :=
  Text.words_of_not_blank (ne_nil_of_isTag h) fun _ hc =>
    not_isBlank_of_isTagChar (isTagChar_of_mem h hc)

theorem words_of_negatedTag? {part tag : List Char} (h : negatedTag? part = some tag)
    (htag : isTag tag) : words part = ["not".toList, tag] := by
  obtain ⟨rest, hafter, rfl⟩ := Option.map_eq_some_iff.mp h
  have hpart : words (Text.trim part) = words ("not".toList ++ ' ' :: rest) := by
    rw [Text.eq_append_of_after? hafter]
    simp
  have hnot : words "not".toList = ["not".toList] := by decide
  have hrest : words rest = [Text.trim rest] := by
    rw [← Text.words_trim, words_of_isTag htag]
  rw [← Text.words_trim, hpart, Text.words_append (by decide), hnot, hrest]
  rfl

/-- Terms that negate tags spell an expression, each cut being a word of its own. -/
theorem words_of_splitOn {text : List Char} {tags : List (List Char)}
    (h : (Text.splitOn " and ".toList text).mapM negatedTag? = some tags)
    (htags : ∀ tag ∈ tags, isTag tag) : tags ≠ [] ∧ words text = spelled tags := by
  fun_induction Text.splitOn " and ".toList text generalizing tags with
  | case1 text hcut =>
    obtain ⟨tag, hterm, rfl⟩ : ∃ tag, negatedTag? text = some tag ∧ [tag] = tags := by
      simpa [Option.bind_eq_some_iff] using h
    refine ⟨by simp, ?_⟩
    rw [words_of_negatedTag? hterm (htags tag List.mem_cons_self)]
    simp [spelled]
  | case2 text before rest hcut ih =>
    obtain ⟨tag, hterm, more, hmore, rfl⟩ : ∃ tag, negatedTag? before = some tag ∧
        ∃ more, (Text.splitOn " and ".toList rest).mapM negatedTag? = some more ∧
          tag :: more = tags := by
      simpa [List.mapM_cons, Option.bind_eq_some_iff] using h
    obtain ⟨hne, hrest⟩ := ih hmore fun other hother =>
      htags other (List.mem_cons_of_mem tag hother)
    obtain ⟨next, later, rfl⟩ := List.exists_cons_of_ne_nil hne
    have hand : words "and".toList = ["and".toList] := by decide
    have htext : text = before ++ ' ' :: ("and".toList ++ ' ' :: rest) := by
      rw [Text.eq_append_of_cut? hcut]
      simp
    refine ⟨by simp, ?_⟩
    rw [htext, Text.words_append (by decide), Text.words_append (by decide), hrest, hand,
      words_of_negatedTag? hterm (htags tag List.mem_cons_self), spelled_cons]
    rfl

/-! ### Filters of tags -/

theorem insertAll_ok {given tags result : List String} (h : insertAll given tags = .ok result) :
    (∀ tag ∈ tags, isTag tag.toList) ∧ result = given ++ (tags.removeAll given).eraseDups := by
  induction tags generalizing given with
  | nil =>
    cases h
    simp
  | cons tag tags ih =>
    rw [insertAll] at h
    split at h
    · next htag =>
        obtain ⟨htags, hresult⟩ := ih h
        refine ⟨List.forall_mem_cons.mpr ⟨htag, htags⟩, ?_⟩
        rw [hresult, insert, List.cons_removeAll]
        by_cases hgiven : tag ∈ given
        · simp [hgiven]
        · have hrest : tags.removeAll (given ++ [tag]) =
              (tags.removeAll given).filter fun other => !other == tag := by
            simp [List.removeAll, List.filter_filter, beq_eq_decide, Bool.and_comm]
          simp [hgiven, List.eraseDups_cons, hrest]
    · cases h

/-- Accepted tags are identifiers, and the filter has each of them where it comes first. -/
theorem excluding_ok {tags : List String} {filter : TestFilter} (h : excluding tags = .ok filter) :
    (∀ tag ∈ tags, isTag tag.toList) ∧ filter.excluded = tags.eraseDups := by
  unfold excluding at h
  cases hall : insertAll [] tags with
  | error e =>
    rw [hall] at h
    cases h
  | ok result =>
    rw [hall] at h
    cases h
    simpa [List.removeAll] using insertAll_ok hall

theorem selects_eq_false_iff {filter : TestFilter} {carried : List String} :
    filter.selects carried = false ↔ ∃ tag ∈ filter.excluded, tag ∈ carried := by
  simp only [selects, Bool.not_eq_false', List.any_eq_true, List.contains_iff_mem]
  exact exists_congr fun _ => and_comm

/-! ### Expressions -/

/-- An expression says of each of the tags that it is not there, and nothing else. -/
structure Negates (expression : String) (tags : List String) : Prop where
  words_eq : words expression.toList = spelled (tags.map String.toList)
  tags : ∀ tag ∈ tags, isTag tag.toList

theorem Negates.unique {expression : String} {tags tags' : List String}
    (h : Negates expression tags) (h' : Negates expression tags') : tags = tags' := by
  have hspelled := spelled_injective (h.words_eq.symm.trans h'.words_eq)
  exact (List.map_inj_right fun _ _ => String.toList_injective).mp hspelled

theorem negates_of_parse {expression : String} {filter : TestFilter}
    (h : parse expression = .ok filter) :
    ∃ tags, Negates expression tags ∧ filter.excluded = tags.eraseDups := by
  unfold parse at h
  simp only at h
  split at h
  · next hempty =>
      cases h
      refine ⟨[], ⟨?_, by simp⟩, rfl⟩
      rw [← Text.words_trim, List.isEmpty_iff.mp hempty]
      rfl
  split at h
  · cases h
  · next tags hterms =>
      split at h
      · next found hfound =>
          cases h
          obtain ⟨htags, hexcluded⟩ := excluding_ok hfound
          have htags' : ∀ tag ∈ tags, isTag tag := by
            intro tag hmem
            simpa using htags (String.ofList tag) (List.mem_map_of_mem hmem)
          refine ⟨_, ⟨?_, htags⟩, hexcluded⟩
          rw [← Text.words_trim, (words_of_splitOn hterms htags').2]
          simp [Function.comp_def]
      · cases h

theorem Negates.selects_eq_false_iff {expression : String} {tags : List String}
    {filter : TestFilter} (h : Negates expression tags) (hparse : parse expression = .ok filter)
    {carried : List String} :
    filter.selects carried = false ↔ ∃ tag ∈ tags, tag ∈ carried := by
  obtain ⟨tags', h', hexcluded⟩ := negates_of_parse hparse
  rw [TestFilter.selects_eq_false_iff, hexcluded, h'.unique h]
  simp only [List.mem_eraseDups]

theorem parse_error {expression : String} {e : TestFilterError}
    (h : parse expression = .error e) :
    e = .unsupported (String.ofList (Text.trim expression.toList)) := by
  unfold parse at h
  simp only at h
  split at h
  · cases h
  split at h
  · exact (Except.error.inj h).symm
  · split at h
    · cases h
    · exact (Except.error.inj h).symm

/-- Which tests a filter deselects depends on the tags the expression negates, as a set. -/
theorem Negates.selects_eq {expression other : String} {tags otherTags : List String}
    {filter otherFilter : TestFilter} (h : Negates expression tags)
    (hother : Negates other otherTags) (hsame : ∀ tag, tag ∈ tags ↔ tag ∈ otherTags)
    (hparse : parse expression = .ok filter) (hotherParse : parse other = .ok otherFilter)
    (carried : List String) : filter.selects carried = otherFilter.selects carried := by
  have hiff : filter.selects carried = false ↔ otherFilter.selects carried = false := by
    rw [h.selects_eq_false_iff hparse, hother.selects_eq_false_iff hotherParse]
    exact exists_congr fun tag => and_congr_left fun _ => hsame tag
  exact Bool.eq_iff_iff.mpr (by simpa using not_congr hiff)

/--
An accepted expression is blank or has the words `not a and not b` for identifiers `a` and `b`. Its
filter has each of them where it comes first and deselects the tests that carry one of them, so an
accepted expression of the same tags, in whatever order and number, selects the same tests. A
refused expression is shown trimmed.
-/
theorem parse_sound (expression : String) :
    (∀ filter, parse expression = .ok filter →
      ∃ tags, Negates expression tags ∧ filter.excluded = tags.eraseDups ∧
        (∀ carried, filter.selects carried = false ↔ ∃ tag ∈ tags, tag ∈ carried) ∧
        ∀ other otherTags otherFilter, Negates other otherTags →
          parse other = .ok otherFilter → (∀ tag, tag ∈ tags ↔ tag ∈ otherTags) →
          ∀ carried, filter.selects carried = otherFilter.selects carried) ∧
    ∀ e, parse expression = .error e →
      e = .unsupported (String.ofList (Text.trim expression.toList)) := by
  refine ⟨?_, fun e => parse_error⟩
  intro filter hparse
  obtain ⟨tags, hnegates, hexcluded⟩ := negates_of_parse hparse
  refine ⟨tags, hnegates, hexcluded, fun carried => hnegates.selects_eq_false_iff hparse, ?_⟩
  intro other otherTags otherFilter hother hotherParse hsame carried
  exact hnegates.selects_eq hother hsame hparse hotherParse carried

theorem parse_repeated :
    parse "\tnot  b  and not a and not b\n" = .ok ⟨["b", "a"]⟩ ∧
      (∀ carried, selects ⟨["b", "a"]⟩ carried = selects ⟨["a", "b"]⟩ carried) ∧
      ∃ e, parse " not a\tand not b" = .error e ∧ e = .unsupported "not a\tand not b" := by
  have hparse : parse "\tnot  b  and not a and not b\n" = .ok ⟨["b", "a"]⟩ := by
    decide +kernel
  have hnegates : Negates "\tnot  b  and not a and not b\n" ["b", "a", "b"] :=
    ⟨by decide, by decide⟩
  have hother : Negates "not a and not b" ["a", "b"] := ⟨by decide, by decide⟩
  obtain ⟨tags, htags, -, -, hsame⟩ := (parse_sound _).1 _ hparse
  have hrefused : parse " not a\tand not b" = .error (.unsupported "not a\tand not b") := by
    decide +kernel
  have hshown := (parse_sound _).2 _ hrefused
  have htrim : String.ofList (Text.trim " not a\tand not b".toList) = "not a\tand not b" := by
    decide +kernel
  rw [htrim] at hshown
  refine ⟨hparse, ?_, _, hrefused, hshown⟩
  refine hsame _ _ _ hother (by decide +kernel) ?_
  rw [htags.unique hnegates]
  intro tag
  simp only [List.mem_cons, List.not_mem_nil, or_false]
  tauto

end TestFilter

end BuildMatrix

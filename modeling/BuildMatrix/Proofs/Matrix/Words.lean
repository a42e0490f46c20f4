import BuildMatrix.Proofs.FileSystem.Path
import BuildMatrix.Proofs.Matrix.Slug
import Mathlib.Data.List.Basic

/-!
# The words of a slug

A slug keeps the words of a text: its groups of letters and digits, in lowercase and in order. What
stands between them is lost, so two texts have one slug exactly if they have the same words.
-/

namespace BuildMatrix

namespace Slug

/-- The words of a text, the first of which has begun with `begun`. -/
def wordsFrom (begun : List Char) : List Char → List (List Char)
  | [] => if begun.isEmpty then [] else [begun]
  | c :: s =>
    if isKept c then wordsFrom (begun ++ [c.toLower]) s
    else if begun.isEmpty then wordsFrom [] s else begun :: wordsFrom [] s

def words (s : List Char) : List (List Char) := wordsFrom [] s

/-- The words by which a text is named; there is always one. -/
def namedWords (words : List (List Char)) : List (List Char) :=
  if words.isEmpty then ["default".toList] else words

def spelled (words : List (List Char)) : List Char := ['-'].intercalate words

theorem spelled_cons (word next : List Char) (words : List (List Char)) :
    spelled (word :: next :: words) = word ++ '-' :: spelled (next :: words) := by
  simp [spelled, List.intercalate_cons_cons]

theorem wordsFrom_append {c : Char} (h : isKept c = false) (begun s t : List Char) :
    wordsFrom begun (s ++ c :: t) = wordsFrom begun s ++ words t := by
  induction s generalizing begun with
  | nil =>
    simp only [List.nil_append, wordsFrom, h, Bool.false_eq_true, if_false, words]
    split
    · rfl
    · rfl
  | cons d s ih =>
    simp only [List.cons_append, wordsFrom]
    split
    · exact ih _
    · split
      · exact ih _
      · rw [ih, List.cons_append]

theorem words_append {c : Char} (h : isKept c = false) (s t : List Char) :
    words (s ++ c :: t) = words s ++ words t := wordsFrom_append h [] s t

/-- A word has characters, and none of them is a dash. -/
structure IsWord (word : List Char) : Prop where
  ne_nil : word ≠ []
  dashless : '-' ∉ word

theorem forall_wordsFrom {begun s : List Char} (hbegun : ∀ c ∈ begun, IsSlugChar c) :
    ∀ word ∈ wordsFrom begun s, word ≠ [] ∧ ∀ c ∈ word, IsSlugChar c := by
  induction s generalizing begun with
  | nil =>
    intro word hword
    simp only [wordsFrom, List.isEmpty_iff] at hword
    split at hword
    · cases hword
    · next hne =>
        rw [List.mem_singleton] at hword
        exact hword ▸ ⟨hne, hbegun⟩
  | cons c s ih =>
    intro word hword
    simp only [wordsFrom, List.isEmpty_iff] at hword
    split at hword
    · next hkept =>
        refine ih ?_ word hword
        intro d hd
        cases List.mem_append.mp hd with
        | inl hold => exact hbegun d hold
        | inr hnew => exact List.mem_singleton.mp hnew ▸ isSlugChar_toLower hkept
    · split at hword
      · exact ih (by simp) word hword
      · next hne =>
          cases List.mem_cons.mp hword with
          | inl he => exact he ▸ ⟨hne, hbegun⟩
          | inr hrest => exact ih (by simp) word hrest

theorem isSlugChar_of_mem_words {s word : List Char} (h : word ∈ words s) :
    ∀ c ∈ word, IsSlugChar c :=
  (forall_wordsFrom (by simp) word h).2

theorem isWord_words {s word : List Char} (h : word ∈ words s) : IsWord word where
  ne_nil := (forall_wordsFrom (by simp) word h).1
  dashless hdash := not_isSlugChar (by decide) (isSlugChar_of_mem_words h '-' hdash)

/-- What may follow the words: a dash, if there are any. -/
def IsEnd (words : List (List Char)) (tail : List Char) : Prop :=
  tail = [] ∨ tail = ['-'] ∧ words ≠ []

/--
What is written of a text, after a word has begun and after a dash. The two hold together: a word
ends before a dash, and the next one begins behind it.
-/
theorem dashed_eq (s : List Char) :
    (∀ begun, begun ≠ [] → ∃ tail, IsEnd (wordsFrom begun s) tail ∧
      begun ++ dashed false s = spelled (wordsFrom begun s) ++ tail) ∧
    ∃ tail, IsEnd (words s) tail ∧ dashed true s = spelled (words s) ++ tail := by
  induction s with
  | nil =>
    refine ⟨fun begun hne => ⟨[], .inl rfl, ?_⟩, [], .inl rfl, rfl⟩
    simp [dashed, wordsFrom, hne, spelled]
  | cons c s ih =>
    obtain ⟨hbegun, tail, htail, hdashed⟩ := ih
    by_cases hkept : isKept c
    · constructor
      · intro begun hne
        have hwords : wordsFrom begun (c :: s) = wordsFrom (begun ++ [c.toLower]) s := by
          rw [wordsFrom, if_pos hkept]
        rw [hwords, dashed, if_pos hkept, List.append_cons begun c.toLower (dashed false s)]
        exact hbegun (begun ++ [c.toLower]) (by simp)
      · have hwords : words (c :: s) = wordsFrom [c.toLower] s := by
          rw [words, wordsFrom, if_pos hkept]
          rfl
        rw [hwords, dashed, if_pos hkept]
        exact hbegun [c.toLower] (by simp)
    · constructor
      · intro begun hne
        have hwords : wordsFrom begun (c :: s) = begun :: words s := by
          simp [wordsFrom, hkept, hne, words]
        rw [hwords, dashed, if_neg hkept, if_neg Bool.false_ne_true, hdashed]
        cases hrest : words s with
        | nil =>
          have hnone : tail = [] := htail.resolve_right fun h => h.2 hrest
          refine ⟨['-'], .inr ⟨rfl, by simp⟩, ?_⟩
          rw [hnone]
          simp [spelled]
        | cons next rest =>
          refine ⟨tail, htail.imp id fun h => ⟨h.1, by simp⟩, ?_⟩
          rw [spelled_cons, List.append_assoc, List.cons_append]
      · have hwords : words (c :: s) = words s := by simp [words, wordsFrom, hkept]
        rw [hwords, dashed, if_neg hkept, if_pos rfl]
        exact ⟨tail, htail, hdashed⟩

theorem spelled_ne_nil {words : List (List Char)} (hne : words ≠ [])
    (h : ∀ word ∈ words, IsWord word) : spelled words ≠ [] := by
  cases words with
  | nil => exact absurd rfl hne
  | cons word words =>
    cases words with
    | nil => simpa [spelled] using (h word (by simp)).ne_nil
    | cons next words => simp [spelled_cons]

theorem head?_spelled {words : List (List Char)} (h : ∀ word ∈ words, IsWord word) :
    ∀ c ∈ (spelled words).head?, c ≠ '-' := by
  have hfirst {word : List Char} (hword : IsWord word) (rest : List Char) :
      ∀ c ∈ (word ++ rest).head?, c ≠ '-' := by
    intro c hc he
    obtain ⟨d, letters, hletters⟩ := List.exists_cons_of_ne_nil hword.ne_nil
    rw [hletters] at hc
    cases hc
    exact hword.dashless (by simp [hletters, he])
  cases words with
  | nil => exact fun c hc => nomatch hc
  | cons word words =>
    cases words with
    | nil => simpa [spelled] using hfirst (h word (by simp)) []
    | cons next words =>
      rw [spelled_cons]
      exact hfirst (h word (by simp)) _

theorem getLast?_spelled {words : List (List Char)} (h : ∀ word ∈ words, IsWord word) :
    ∀ c ∈ (spelled words).getLast?, c ≠ '-' := by
  induction words with
  | nil => exact fun c hc => nomatch hc
  | cons word words ih =>
    have hword := h word (by simp)
    cases words with
    | nil =>
      intro c hc he
      rw [spelled, List.intercalate_singleton] at hc
      exact hword.dashless (he ▸ List.mem_of_getLast? hc)
    | cons next words =>
      have hrest : ∀ other ∈ next :: words, IsWord other :=
        fun other hmem => h other (List.mem_cons_of_mem word hmem)
      rw [spelled_cons, List.append_cons,
        List.getLast?_append_of_ne_nil _ (spelled_ne_nil (by simp) hrest)]
      exact ih hrest

theorem trimDashes_eq {lead tail s : List Char} (hlead : lead = [] ∨ lead = ['-'])
    (htail : tail = [] ∨ tail = ['-']) (hfirst : ∀ c ∈ s.head?, c ≠ '-')
    (hlast : ∀ c ∈ s.getLast?, c ≠ '-') : trimDashes (lead ++ s ++ tail) = s := by
  have hdrop {t : List Char} (h : ∀ c ∈ t.head?, c ≠ '-') : t.dropWhile (· == '-') = t := by
    cases t with
    | nil => rfl
    | cons c t => exact List.dropWhile_cons_of_neg (by simpa using h c rfl)
  have hdash (dashes t : List Char) (h : dashes = [] ∨ dashes = ['-']) :
      (dashes ++ t).dropWhile (· == '-') = t.dropWhile (· == '-') := by
    cases h with
    | inl h => rw [h, List.nil_append]
    | inr h => rw [h, List.singleton_append, List.dropWhile_cons_of_pos (by rfl)]
  have hreverse : tail.reverse = tail := by
    cases htail with
    | inl h => rw [h]; rfl
    | inr h => rw [h]; rfl
  rw [trimDashes, List.append_assoc, hdash lead _ hlead]
  cases hs : s with
  | nil =>
    rw [List.nil_append, ← List.append_nil tail, hdash tail [] htail]
    rfl
  | cons c t =>
    have hstart : ∀ d ∈ (c :: t ++ tail).head?, d ≠ '-' := by
      rw [hs] at hfirst
      exact hfirst
    rw [hdrop hstart, List.reverse_append, hreverse, hdash tail _ htail, ← hs,
      hdrop (by rwa [List.head?_reverse]), List.reverse_reverse]

/-- The words of a text are what its slug spells. -/
theorem ofChars_eq (s : List Char) : ofChars s = spelled (namedWords (words s)) := by
  have hdashed : ∃ lead tail, (lead = [] ∨ lead = ['-']) ∧ (tail = [] ∨ tail = ['-']) ∧
      dashed false s = lead ++ spelled (words s) ++ tail := by
    cases s with
    | nil => exact ⟨[], [], .inl rfl, .inl rfl, rfl⟩
    | cons c s =>
      by_cases hkept : isKept c
      · have hwords : words (c :: s) = wordsFrom [c.toLower] s := by
          rw [words, wordsFrom, if_pos hkept]
          rfl
        obtain ⟨tail, htail, heq⟩ := (dashed_eq s).1 [c.toLower] (by simp)
        refine ⟨[], tail, .inl rfl, htail.imp id And.left, ?_⟩
        rw [dashed, if_pos hkept, hwords, List.nil_append, ← heq]
        rfl
      · have hwords : words (c :: s) = words s := by simp [words, wordsFrom, hkept]
        obtain ⟨tail, htail, heq⟩ := (dashed_eq s).2
        refine ⟨['-'], tail, .inr rfl, htail.imp id And.left, ?_⟩
        rw [dashed, if_neg hkept, if_neg Bool.false_ne_true, hwords, heq]
        rfl
  obtain ⟨lead, tail, hlead, htail, heq⟩ := hdashed
  have hwords : ∀ word ∈ words s, IsWord word := fun _ => isWord_words
  have htrim : trimDashes (dashed false s) = spelled (words s) := by
    rw [heq]
    exact trimDashes_eq hlead htail (head?_spelled hwords) (getLast?_spelled hwords)
  rw [ofChars, htrim]
  cases hlist : words s with
  | nil => rfl
  | cons word rest =>
    have hne : spelled (word :: rest) ≠ [] := spelled_ne_nil (by simp) (hlist ▸ hwords)
    cases hspelled : spelled (word :: rest) with
    | nil => exact absurd hspelled hne
    | cons c t =>
      simp only [namedWords, List.isEmpty_cons, Bool.false_eq_true, if_false, hspelled]

theorem splitAt_spelled {words : List (List Char)} (hne : words ≠ [])
    (h : ∀ word ∈ words, IsWord word) : Text.splitAt '-' (spelled words) = words := by
  induction words with
  | nil => exact absurd rfl hne
  | cons word words ih =>
    have hword : Text.splitAt '-' word = [word] :=
      Text.splitAt_of_not_mem (h word (by simp)).dashless
    cases words with
    | nil => simpa [spelled] using hword
    | cons next words =>
      have hrest := ih (by simp) fun other hmem => h other (List.mem_cons_of_mem word hmem)
      rw [spelled_cons, Text.splitAt_append, hword, hrest]
      rfl

theorem isWord_namedWords {words : List (List Char)} (h : ∀ word ∈ words, IsWord word) :
    ∀ word ∈ namedWords words, IsWord word := by
  unfold namedWords
  split
  · intro word hword
    rw [List.mem_singleton.mp hword]
    exact ⟨by decide, by decide⟩
  · exact h

theorem namedWords_ne_nil (words : List (List Char)) : namedWords words ≠ [] := by
  unfold namedWords
  split
  · simp
  · next hne => simpa using hne

theorem ofChars_eq_iff (s t : List Char) :
    ofChars s = ofChars t ↔ namedWords (words s) = namedWords (words t) := by
  constructor
  · intro h
    have hsplit (u : List Char) : Text.splitAt '-' (ofChars u) = namedWords (words u) := by
      rw [ofChars_eq]
      exact splitAt_spelled (namedWords_ne_nil _) (isWord_namedWords fun _ => isWord_words)
    rw [← hsplit s, ← hsplit t, h]
  · intro h
    rw [ofChars_eq, ofChars_eq, h]

end Slug

namespace Plan

/-- The words of the axes and their values, in order. -/
def words (plan : Plan) : List (List Char) :=
  Slug.namedWords (plan.assignments.flatMap fun a =>
    Slug.words a.1.toList ++ Slug.words a.2.toList)

theorem words_dashedText (plan : Plan) :
    Slug.words plan.dashedText.toList =
      plan.assignments.flatMap fun a => Slug.words a.1.toList ++ Slug.words a.2.toList := by
  have hdash : Slug.isKept '-' = false := by decide
  have hpair (a : String × String) :
      Slug.words (a.1 ++ "-" ++ a.2).toList =
        Slug.words a.1.toList ++ Slug.words a.2.toList := by
    rw [String.toList_append, String.toList_append, List.append_assoc]
    exact Slug.words_append hdash _ _
  rw [dashedText, Text.joinWith, String.toList_intercalate, List.map_map]
  induction plan.assignments with
  | nil => rfl
  | cons a rest ih =>
    cases rest with
    | nil => simpa using hpair a
    | cons b rest =>
      rw [List.map_cons, List.map_cons, List.intercalate_cons_cons, List.flatMap_cons, ← ih,
        ← hpair, List.append_assoc]
      exact Slug.words_append hdash _ _

/-- The words of a plan are all that its slug tells. -/
theorem slug_eq_iff (p q : Plan) : p.slug = q.slug ↔ p.words = q.words := by
  rw [slug, slug, String.ofList_inj, Slug.ofChars_eq_iff, words_dashedText, words_dashedText]
  rfl

end Plan

end BuildMatrix

import BuildMatrix.Cache.Policy
import BuildMatrix.Proofs.Matrix.Words

/-!
# The normal form of slugs

A slug is made of the groups of letters and digits of its text, in lowercase and with one dash
between them. It is a slug of itself, and the name of one directory below the root of the caches.
-/

namespace BuildMatrix

namespace Slug

def groups (s : List Char) : List (List Char) :=
  (s.splitOnP fun c => !c.isAlphanum).filter fun group => !group.isEmpty

theorem groups_append {c : Char} (h : isKept c = false) (s t : List Char) :
    groups (s ++ c :: t) = groups s ++ groups t := by
  have hseparates : (!c.isAlphanum) = true := by rw [show c.isAlphanum = false from h]; rfl
  rw [groups, List.splitOnP_append_cons s t hseparates, List.filter_append]
  rfl

theorem groups_kept {s : List Char} (h : ∀ c ∈ s, isKept c) :
    groups s = if s.isEmpty then [] else [s] := by
  have hsplit : s.splitOnP (fun c => !c.isAlphanum) = [s] := by
    apply List.splitOnP_eq_singleton
    intro c hc
    rw [show c.isAlphanum = true from h c hc]
    rfl
  rw [groups, hsplit]
  cases s with
  | nil => rfl
  | cons c s => rfl

theorem wordsFrom_eq (begun : List Char) (h : ∀ c ∈ begun, isKept c) (s : List Char) :
    wordsFrom (begun.map Char.toLower) s = (groups (begun ++ s)).map (List.map Char.toLower) := by
  induction s generalizing begun with
  | nil =>
    rw [List.append_nil, groups_kept h, wordsFrom, List.isEmpty_map]
    split <;> rfl
  | cons c s ih =>
    by_cases hkept : isKept c
    · have hbegun : ∀ d ∈ begun ++ [c], isKept d := by
        simp only [List.forall_mem_append, List.forall_mem_singleton]
        exact ⟨h, hkept⟩
      have hword : begun.map Char.toLower ++ [c.toLower] = (begun ++ [c]).map Char.toLower := by
        rw [List.map_append, List.map_singleton]
      rw [wordsFrom, if_pos hkept, hword, ih _ hbegun, List.append_assoc, List.singleton_append]
    · have hgap : isKept c = false := by simpa using hkept
      rw [wordsFrom, if_neg hkept, groups_append hgap, groups_kept h, List.isEmpty_map,
        List.map_append]
      have hrest : wordsFrom [] s = (groups s).map (List.map Char.toLower) := by
        simpa using ih [] (by simp)
      split
      · exact hrest
      · rw [hrest]
        rfl

/-- The words of a text are its groups in lowercase. -/
theorem words_eq (s : List Char) : words s = (groups s).map (List.map Char.toLower) := by
  simpa [words] using wordsFrom_eq [] (by simp) s

/-! ### Slugs of slugs -/

theorem words_word {word : List Char} (hne : word ≠ []) (h : ∀ c ∈ word, IsSlugChar c) :
    words word = [word] := by
  have hlower : word.map Char.toLower = word := by
    rw [← List.map_id word, List.map_map]
    exact List.map_congr_left fun c hc => (h c hc).toLower_eq
  rw [words_eq, groups_kept fun c hc => (h c hc).isKept, if_neg (by simpa using hne),
    List.map_singleton, hlower]

theorem words_spelled {words : List (List Char)}
    (h : ∀ word ∈ words, word ≠ [] ∧ ∀ c ∈ word, IsSlugChar c) :
    Slug.words (spelled words) = words := by
  induction words with
  | nil => rfl
  | cons word words ih =>
    obtain ⟨hword, hwords⟩ := List.forall_mem_cons.mp h
    cases words with
    | nil => simpa [spelled] using words_word hword.1 hword.2
    | cons next words =>
      rw [spelled_cons, words_append (by decide), words_word hword.1 hword.2, ih hwords]
      rfl

theorem isSlugChar_of_mem_namedWords {s word : List Char} (h : word ∈ namedWords (words s)) :
    ∀ c ∈ word, IsSlugChar c := by
  unfold namedWords at h
  split at h
  · rw [List.mem_singleton.mp h]
    exact isSlugChar_default
  · exact isSlugChar_of_mem_words h

theorem words_ofChars (s : List Char) : words (ofChars s) = namedWords (words s) := by
  rw [ofChars_eq]
  apply words_spelled
  intro word hword
  have hnamed := isWord_namedWords (fun _ => isWord_words) word hword
  exact ⟨hnamed.ne_nil, isSlugChar_of_mem_namedWords hword⟩

theorem ofChars_of_words {s t : List Char} (h : words t = words (ofChars s)) :
    ofChars t = ofChars s := by
  rw [ofChars_eq_iff, h, words_ofChars, namedWords, if_neg]
  simpa using namedWords_ne_nil (words s)

/-! ### The form of a slug -/

/-- Lowercase letters and digits, in groups with single dashes between them. -/
structure IsNormal (slug : List Char) : Prop where
  ne_nil : slug ≠ []
  chars : ∀ c ∈ slug, 'a' ≤ c ∧ c ≤ 'z' ∨ '0' ≤ c ∧ c ≤ '9' ∨ c = '-'
  head : slug.head? ≠ some '-'
  last : slug.getLast? ≠ some '-'
  single : ¬['-', '-'] <:+: slug

theorem isNormal_ofChars (s : List Char) : IsNormal (ofChars s) := by
  have hwords : ∀ word ∈ namedWords (words s), IsWord word :=
    isWord_namedWords fun _ => isWord_words
  constructor
  case ne_nil => exact ofChars_ne_nil s
  case chars =>
    intro c hc
    cases mem_ofChars hc with
    | inl hchar => exact hchar.imp_right .inl
    | inr hdash => exact .inr (.inr hdash)
  case head =>
    rw [ofChars_eq]
    exact fun hhead => head?_spelled hwords '-' hhead rfl
  case last =>
    rw [ofChars_eq]
    exact fun hlast => getLast?_spelled hwords '-' hlast rfl
  case single =>
    -- Between two dashes there would be a word without characters.
    intro hinfix
    obtain ⟨before, after, hslug⟩ := hinfix
    have hsplit := splitAt_spelled (namedWords_ne_nil (words s)) hwords
    rw [← ofChars_eq, ← hslug, List.append_assoc, List.cons_append, List.cons_append,
      List.nil_append, Text.splitAt_append, ← List.nil_append ('-' :: after),
      Text.splitAt_append] at hsplit
    have hempty : [] ∈ namedWords (words s) := by
      rw [← hsplit]
      simp [Text.splitAt]
    exact (hwords [] hempty).ne_nil rfl

end Slug

namespace Plan

/-- The names and values of the axes, one after the other with dashes between them. -/
def spelledText (plan : Plan) : String :=
  Text.joinWith "-" (plan.assignments.flatMap fun a => [a.1, a.2])

theorem dashedText_eq (plan : Plan) : plan.dashedText = plan.spelledText := by
  rw [dashedText, spelledText, Text.joinWith, Text.joinWith]
  induction plan.assignments with
  | nil => rfl
  | cons a rest ih =>
    cases rest with
    | nil => simp [String.intercalate_cons_cons]
    | cons b rest =>
      simp only [List.map_cons, List.flatMap_cons, List.cons_append, List.nil_append,
        String.intercalate_cons_cons, String.append_assoc] at ih ⊢
      rw [ih]

/-- The slug of a plan by what it is made of, how it looks and where it lies as a directory. -/
structure HasNormalSlug (plan : Plan) : Prop where
  joined : plan.slug.toList =
    if Slug.groups plan.spelledText.toList = [] then "default".toList
    else ['-'].intercalate ((Slug.groups plan.spelledText.toList).map (List.map Char.toLower))
  normal : Slug.IsNormal plan.slug.toList
  /-- The slug is one component of a path, and none that stands for a directory above. -/
  component : IsName plan.slug ∧ Path.components plan.slug = [.name plan.slug]
  /-- The cache directory lies directly in the root of the caches. -/
  child : ∀ policy : CachePolicy, Path.components (policy.directoryFor plan) =
    Path.components policy.path ++ [.name plan.slug]
  again : Slug.ofChars plan.slug.toList = plan.slug.toList
  /-- A plan that has a slug as its only text has the same slug. -/
  again_plan : (Plan.mk [(plan.slug, "")]).slug = plan.slug

theorem toList_slug (plan : Plan) : plan.slug.toList = Slug.ofChars plan.dashedText.toList := by
  rw [slug, String.toList_ofList]

theorem slug_normalForm (plan : Plan) : plan.HasNormalSlug := by
  constructor
  case joined =>
    rw [toList_slug, dashedText_eq, Slug.ofChars_eq, Slug.words_eq, Slug.namedWords,
      List.isEmpty_map]
    by_cases hgroups : Slug.groups plan.spelledText.toList = []
    · rw [hgroups]
      rfl
    · rw [if_neg hgroups, if_neg (by simpa using hgroups)]
      rfl
  case normal =>
    rw [toList_slug]
    exact Slug.isNormal_ofChars plan.dashedText.toList
  case component =>
    refine ⟨plan.isName_slug, ?_⟩
    have hjoin : Path.join "" plan.slug = plan.slug := by
      simp [Path.join, plan.isName_slug.isAbsolute_eq]
    rw [← hjoin, Path.components_join plan.isName_slug, hjoin]
    rfl
  case child =>
    intro policy
    exact Path.components_join plan.isName_slug policy.path
  case again =>
    rw [toList_slug]
    exact Slug.ofChars_of_words rfl
  case again_plan =>
    apply String.toList_inj.mp
    rw [toList_slug, toList_slug]
    apply Slug.ofChars_of_words
    rw [words_dashedText, ← toList_slug]
    simp [Slug.words, Slug.wordsFrom]

/-- Runs of other characters are one dash, and letters that are not ASCII are among them. -/
example : (Plan.mk [("OS_Name", "Ubuntu--22.04"), ("é", "")]).slug = "os-name-ubuntu-22-04" := by
  decide +kernel

end Plan

end BuildMatrix

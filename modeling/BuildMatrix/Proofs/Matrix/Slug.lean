import BuildMatrix.Matrix.Plan
import BuildMatrix.Proofs.FileSystem.Entry

/-!
# Slugs as names

A slug has no slash and is not made of dots, so it is the name of one entry of a directory.
-/

namespace BuildMatrix

namespace Slug

/-- A lowercase letter or a digit, as the words of a slug have them. -/
def IsSlugChar (c : Char) : Prop := 'a' ≤ c ∧ c ≤ 'z' ∨ '0' ≤ c ∧ c ≤ '9'

theorem isKept_iff {c : Char} : isKept c ↔ ('A' ≤ c ∧ c ≤ 'Z') ∨ IsSlugChar c := by
  change ((decide (c.val ≥ 65 ∧ c.val ≤ 90) || (decide (c.val ≥ 97) && decide (c.val ≤ 122))) ||
    (decide (c.val ≥ 48) && decide (c.val ≤ 57))) = true ↔ _
  simp only [Bool.or_eq_true, Bool.and_eq_true, decide_eq_true_eq]
  exact or_assoc

theorem isSlugChar_toLower {c : Char} (h : isKept c) : IsSlugChar c.toLower := by
  by_cases hupper : c.val ≥ 'A'.val ∧ c.val ≤ 'Z'.val
  · have hlower : c.toLower.val = c.val + 32 := congrArg Char.val (dif_pos hupper)
    left
    simp only [Char.le_def, hlower, UInt32.le_iff_toNat_le, ge_iff_le, UInt32.toNat_add,
      Char.reduceVal, UInt32.reduceToNat] at hupper ⊢
    omega
  · have hlower : c.toLower = c := dif_neg hupper
    rw [hlower]
    exact (isKept_iff.mp h).resolve_left hupper

theorem IsSlugChar.isKept {c : Char} (h : IsSlugChar c) : Slug.isKept c :=
  isKept_iff.mpr (.inr h)

theorem IsSlugChar.toLower_eq {c : Char} (h : IsSlugChar c) : c.toLower = c := by
  apply dif_neg
  simp only [IsSlugChar, Char.le_def, UInt32.le_iff_toNat_le, ge_iff_le, Char.reduceVal,
    UInt32.reduceToNat] at h ⊢
  omega

theorem not_isSlugChar {c : Char} (h : Slug.isKept c = false) : ¬IsSlugChar c := by
  intro hchar
  rw [hchar.isKept] at h
  cases h

/-- A slug takes letters and digits in lowercase, and adds dashes. -/
theorem mem_dashed {c : Char} {s : List Char} {afterDash : Bool} (h : c ∈ dashed afterDash s) :
    c = '-' ∨ ∃ d ∈ s, isKept d ∧ c = d.toLower := by
  induction s generalizing afterDash with
  | nil => simp [dashed] at h
  | cons d s ih =>
      have hrest {afterDash : Bool} (h : c ∈ dashed afterDash s) :
          c = '-' ∨ ∃ e ∈ d :: s, isKept e ∧ c = e.toLower := by
        rcases ih h with hdash | ⟨e, he, hkept⟩
        · exact .inl hdash
        · exact .inr ⟨e, List.mem_cons_of_mem _ he, hkept⟩
      unfold dashed at h
      split at h
      · next hkept =>
          rcases List.mem_cons.mp h with rfl | h
          · exact .inr ⟨d, by simp, hkept, rfl⟩
          · exact hrest h
      · split at h
        · exact hrest h
        · rcases List.mem_cons.mp h with rfl | h
          · exact .inl rfl
          · exact hrest h

theorem mem_of_mem_trimDashes {c : Char} {s : List Char} (h : c ∈ trimDashes s) : c ∈ s := by
  unfold trimDashes at h
  rw [List.mem_reverse] at h
  have h := (List.dropWhile_sublist _).mem h
  rw [List.mem_reverse] at h
  exact (List.dropWhile_sublist _).mem h

theorem ofChars_ne_nil (s : List Char) : ofChars s ≠ [] := by
  unfold ofChars
  split
  · simp
  · next hne => exact hne

theorem isSlugChar_default : ∀ c ∈ "default".toList, IsSlugChar c := by
  have hletters : ∀ c ∈ "default".toList, 'a' ≤ c ∧ c ≤ 'z' := by simp
  exact fun c hc => .inl (hletters c hc)

theorem mem_ofChars {c : Char} {s : List Char} (h : c ∈ ofChars s) : IsSlugChar c ∨ c = '-' := by
  unfold ofChars at h
  split at h
  · exact .inl (isSlugChar_default c h)
  · cases mem_dashed (mem_of_mem_trimDashes h) with
    | inl hdash => exact .inr hdash
    | inr hkept =>
      obtain ⟨d, -, hd, rfl⟩ := hkept
      exact .inl (isSlugChar_toLower hd)

theorem not_mem_ofChars {c : Char} (hkept : isKept c = false) (hdash : c ≠ '-') (s : List Char) :
    c ∉ ofChars s := by
  intro h
  cases mem_ofChars h with
  | inl hchar => exact not_isSlugChar hkept hchar
  | inr he => exact hdash he

end Slug

theorem Plan.isName_slug (plan : Plan) : IsName plan.slug := by
  have hslash := Slug.not_mem_ofChars (c := '/') (by decide) (by decide) plan.dashedText.toList
  have hdot := Slug.not_mem_ofChars (c := '.') (by decide) (by decide) plan.dashedText.toList
  have hlist : plan.slug.toList = Slug.ofChars plan.dashedText.toList := by simp [Plan.slug]
  refine ⟨fun h => ?_, by rwa [hlist], fun h => ?_, fun h => ?_⟩
  · rw [h] at hlist
    exact Slug.ofChars_ne_nil _ hlist.symm
  · rw [h] at hlist
    exact hdot (by simp [← hlist])
  · rw [h] at hlist
    exact hdot (by simp [← hlist])

end BuildMatrix

import BuildMatrix.Proofs.Workspace.Staging

/-!
# Copies of changed package roots

A change in a directory that copies leave out is not seen in the copy, every other one is. The names
of workspaces are not left out.
-/

namespace BuildMatrix

open FileSystem

namespace Workspace

/-- Other entries of a directory are not seen in a copy without it, or with the same copy of it. -/
theorem pruned_insert {name : String} {inner inner' : Entries}
    (hsame : isSkipped name ∨ pruned inner' = pruned inner) : ∀ {entries : Entries},
    entries.find? name = some (.directory inner) →
      pruned (entries.insert name (.directory inner')) = pruned entries
  | .nil, h => by simp at h
  | .cons first node rest, h => by
      rw [Entries.find?_cons] at h
      by_cases hn : first = name
      · subst hn
        rw [if_pos rfl] at h
        cases h
        rw [Entries.insert, if_pos rfl, pruned, pruned]
        rcases hsame with hs | hsame
        · rw [if_pos hs, if_pos hs]
        · rw [hsame]
      · rw [if_neg hn] at h
        rw [Entries.insert, if_neg hn]
        have ih := pruned_insert hsame h
        cases node with
        | file contents executable => simp only [pruned, ih]
        | link target => simp only [pruned, ih]
        | directory deeper => simp only [pruned, ih]

/-- A directory behind one that is left out is not seen in a copy. -/
theorem pruned_place {inner new : Entries} : ∀ {down : Location} {entries now : Entries},
    (Node.directory entries).get? down = some (.directory inner) →
    (Node.directory entries).place down (.directory new) = .directory now →
    (∃ name ∈ down, isSkipped name) → pruned now = pruned entries
  | [], _, _, _, _, ⟨_, hname, _⟩ => by simp at hname
  | name :: down, entries, now, hget, hplace, hskipped => by
      obtain ⟨deeper, hchild, hdown⟩ := Node.exists_directory_of_get?_cons hget
      obtain ⟨deeper', hdeeper⟩ := Node.exists_directory_place deeper down new
      rw [Node.place_cons hchild, hdeeper] at hplace
      cases hplace
      refine pruned_insert ?_ hchild
      obtain ⟨other, hother, hs⟩ := hskipped
      rcases List.mem_cons.mp hother with rfl | hother
      · exact .inl hs
      · exact .inr (pruned_place hdown hdeeper ⟨other, hother, hs⟩)

theorem get?_pruned {inner : Entries} : ∀ {down : Location} {entries : Entries}, entries.IsTree →
    (∀ name ∈ down, isSkipped name = false) →
    (Node.directory entries).get? down = some (.directory inner) →
    (Node.directory (pruned entries)).get? down = some (.directory (pruned inner))
  | [], entries, _, _, hget => by
      obtain rfl : entries = inner := by simpa using hget
      rfl
  | name :: down, entries, ht, hkept, hget => by
      obtain ⟨hname, hkept⟩ := List.forall_mem_cons.mp hkept
      obtain ⟨deeper, hchild, hdown⟩ := Node.exists_directory_of_get?_cons hget
      have hdeeper : deeper.IsTree := (ht.find? hchild).2.2
      rw [Node.get?_directory, find?_pruned name ht, hchild, Option.bind_some, keptEntry,
        if_neg (by simp [hname]), Option.bind_some]
      exact get?_pruned hdeeper hkept hdown

theorem isSkipped_nameOf (plan : Plan) (n : Nat) : isSkipped (nameOf plan n) = false := by
  have hlist := toList_nameOf plan n
  have hhead : (nameOf plan n).toList.head? = some 'c' := by
    rw [hlist]
    rfl
  have hknown : nameOf plan n ∉ skippedNames := by
    intro hmem
    have hnames : ∀ name ∈ skippedNames, name.toList.head? ≠ some 'c' := by decide
    exact hnames _ hmem hhead
  have hne : (suffix n).toList ≠ [] := by
    simp [suffix, Nat.toString_eq_repr, Nat.toList_repr, Nat.toDigits_ne_nil]
  obtain ⟨front, digit, hsuffix⟩ := (List.eq_nil_or_concat _).resolve_left hne
  rw [List.concat_eq_append] at hsuffix
  have hdigit : digit.isDigit := digits_suffix (n := n) (by simp [hsuffix])
  have hletter : 'o' ≠ digit := by
    rintro rfl
    exact absurd hdigit (by decide)
  have hend : Text.endsWith ".egg-info".toList (nameOf plan n).toList = false := by
    rw [hlist, hsuffix, Text.endsWith, Text.startsWith]
    simp [Text.after?, hletter]
  rw [isSkipped, hend, Bool.or_false]
  simpa using hknown

end Workspace

end BuildMatrix

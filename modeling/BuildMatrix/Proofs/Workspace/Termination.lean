import BuildMatrix.Proofs.Workspace.Copy

/-!
# Copying ends

Every directory that is entered has a longer path than the one before, also if the copy itself is
entered because it is in the tree under another path. So the paths are too long before the fuel is
used up, and more fuel changes nothing.
-/

namespace BuildMatrix

open FileSystem

theorem Entries.IsTree.isName_of_mem_kinds {name : String} {kind : EntryKind} :
    ∀ {entries : Entries}, entries.IsTree → (name, kind) ∈ entries.kinds → IsName name
  | .nil, _, h => by cases h
  | .cons _ _ _, ⟨hn, _, _, _, hrest⟩, h => by
      rcases List.mem_cons.mp h with heq | h
      · cases heq
        exact hn
      · exact hrest.isName_of_mem_kinds h

namespace Workspace

section
variable {enter enter' : String → String → FileSystem → FileSystem × Except WorkspaceError Nat}
  {own : List Path.Component} {fs : FileSystem} {source target : String}

theorem isTree_copyEntry
    (henter : ∀ source target fs, fs.root.IsTree → (enter source target fs).1.root.IsTree)
    (name : String) (kind : EntryKind) (ht : fs.root.IsTree) :
    (copyEntry enter own source target name kind fs).1.root.IsTree := by
  cases kind with
  | directory =>
      rw [copyEntry_directory]
      split
      · exact ht
      · exact henter _ _ _ ht
  | file =>
      rw [copyEntry_file]
      cases hcopy : fs.copyFile (Path.join source name) (Path.join target name) with
      | error e => exact ht
      | ok copied => exact isTree_copyFile ht hcopy
  | link =>
      rw [copyEntry_link]
      cases hread : fs.readLink (Path.join source name) with
      | error e => exact ht
      | ok link =>
          cases hmake : fs.makeLink link (Path.join target name) with
          | error e => simpa only [hmake] using ht
          | ok made => simpa only [hmake] using isTree_makeLink ht hmake

theorem isTree_copyEntries
    (henter : ∀ source target fs, fs.root.IsTree → (enter source target fs).1.root.IsTree)
    {kinds : List (String × EntryKind)} (ht : fs.root.IsTree) :
    (copyEntries enter own source target kinds fs).1.root.IsTree := by
  induction kinds generalizing fs with
  | nil => exact ht
  | cons entry rest ih =>
      have hfirst : (copyEntry enter own source target entry.1 entry.2 fs).1.root.IsTree :=
        isTree_copyEntry henter entry.1 entry.2 ht
      rw [copyEntries]
      generalize copyEntry enter own source target entry.1 entry.2 fs = first at hfirst ⊢
      rcases first with ⟨files, e | count⟩
      · exact hfirst
      · have hrest := ih hfirst
        simp only
        generalize copyEntries enter own source target rest files = others at hrest ⊢
        rcases others with ⟨files, e | further⟩
        · exact hrest
        · exact hrest

theorem copyEntries_congr
    (henter : ∀ source target fs, fs.root.IsTree → (enter source target fs).1.root.IsTree)
    {kinds : List (String × EntryKind)}
    (hsame : ∀ name kind, (name, kind) ∈ kinds → ∀ target fs, fs.root.IsTree →
      enter' (Path.join source name) target fs = enter (Path.join source name) target fs)
    (ht : fs.root.IsTree) :
    copyEntries enter' own source target kinds fs =
      copyEntries enter own source target kinds fs := by
  induction kinds generalizing fs with
  | nil => rfl
  | cons entry rest ih =>
      obtain ⟨name, kind⟩ := entry
      have hentry : copyEntry enter' own source target name kind fs =
          copyEntry enter own source target name kind fs := by
        cases kind with
        | directory => simp only [copyEntry_directory, hsame name _ List.mem_cons_self _ _ ht]
        | file => rfl
        | link => rfl
      have hfirst : (copyEntry enter own source target name kind fs).1.root.IsTree :=
        isTree_copyEntry henter name kind ht
      rw [copyEntries, copyEntries, hentry]
      generalize copyEntry enter own source target name kind fs = first at hfirst ⊢
      rcases first with ⟨files, e | count⟩
      · rfl
      · simp only [ih (fun name kind hmem => hsame name kind (List.mem_cons_of_mem _ hmem)) hfirst]

end

section
variable {own : List Path.Component}

theorem isTree_copyWithin (fuel : Nat) (source target : String) (fs : FileSystem)
    (ht : fs.root.IsTree) : (copyWithin own fuel source target fs).1.root.IsTree := by
  induction fuel generalizing source target fs with
  | zero =>
      have hmade := isTree_makeDirectories ht target
      unfold copyWithin
      generalize fs.makeDirectories target = made at hmade ⊢
      rcases made with ⟨made, e | _⟩
      · exact hmade
      · simp only
        cases made.readDirectory source <;> exact hmade
  | succ fuel ih =>
      have hmade := isTree_makeDirectories ht target
      unfold copyWithin
      generalize fs.makeDirectories target = made at hmade ⊢
      rcases made with ⟨made, e | _⟩
      · exact hmade
      · simp only
        cases made.readDirectory source with
        | error e => exact hmade
        | ok entries => exact isTree_copyEntries ih hmade

/-- The fuel is not used up. -/
theorem copyWithin_succ {fuel : Nat} {source target : String} {fs : FileSystem}
    (ht : fs.root.IsTree) (h : pathLimit ≤ source.utf8ByteSize + fuel) :
    copyWithin own (fuel + 1) source target fs = copyWithin own fuel source target fs := by
  induction fuel generalizing source target fs with
  | zero =>
      have hmade := isTree_makeDirectories ht target
      unfold copyWithin
      generalize fs.makeDirectories target = made at hmade ⊢
      rcases made with ⟨made, e | _⟩
      · rfl
      · simp only
        cases hread : made.readDirectory source with
        | error e => rfl
        | ok entries =>
            have hsize := (isTree_readDirectory hmade hread).1.size
            omega
  | succ fuel ih =>
      have hmade := isTree_makeDirectories ht target
      unfold copyWithin
      generalize fs.makeDirectories target = made at hmade ⊢
      rcases made with ⟨made, e | _⟩
      · rfl
      · simp only
        cases hread : made.readDirectory source with
        | error e => rfl
        | ok entries =>
            refine copyEntries_congr (isTree_copyWithin fuel) (fun name kind hmem target fs ht => ?_)
              hmade
            have hn := (isTree_readDirectory hmade hread).2.isName_of_mem_kinds hmem
            have hlonger := hn.lt_utf8ByteSize_join source
            exact ih ht (by omega)

/-- Copying ends, whatever is copied: more fuel than `copyTree` has changes nothing. -/
theorem copyWithin_of_le {fuel : Nat} {source target : String} {fs : FileSystem}
    (ht : fs.root.IsTree) (h : pathLimit ≤ fuel) :
    copyWithin (Path.components target) fuel source target fs = copyTree fs source target := by
  induction h with
  | refl => rfl
  | step hle ih => rw [copyWithin_succ ht (Nat.le_add_left_of_le hle), ih]

end

end Workspace

end BuildMatrix

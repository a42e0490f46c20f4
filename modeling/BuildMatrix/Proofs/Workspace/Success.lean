import BuildMatrix.Proofs.Workspace.Staging
import Mathlib.Data.List.Nodup
import Mathlib.Data.List.Perm.Subperm

/-!
# When staging succeeds

Staging succeeds if the paths of the copies can be looked up: among the names that are tried one is
always free, and nothing else can be in the way of a copy.
-/

namespace BuildMatrix

open FileSystem

namespace Workspace

theorem ofDigitChars_suffix (n : Nat) : Nat.ofDigitChars 10 (suffix n).toList 0 = n := by
  simp [suffix, Nat.toString_eq_repr, Nat.toList_repr, Nat.ofDigitChars_append,
    Nat.ofDigitChars_replicate_zero, Nat.ofDigitChars_ten_toDigits]

theorem nameOf_injective (plan : Plan) : Function.Injective (nameOf plan) := by
  intro n m h
  have hsuffix : suffix n = suffix m := by
    have hlist := congrArg String.toList h
    simp only [nameOf, String.toList_append] at hlist
    exact String.toList_injective (List.append_cancel_left hlist)
  rw [← ofDigitChars_suffix n, hsuffix, ofDigitChars_suffix]

theorem exists_free_name (others : Entries) (plan : Plan) :
    ∃ n ≤ others.names.length, others.find? (nameOf plan n) = none := by
  by_contra hall
  push Not at hall
  have hmem : (List.range (others.names.length + 1)).map (nameOf plan) ⊆
      others.names := by
    intro name hname
    obtain ⟨n, hn, rfl⟩ := List.mem_map.mp hname
    exact Entries.mem_names.mpr (Option.ne_none_iff_exists'.mp (hall n (by
      simpa [Nat.lt_succ_iff] using hn)))
  have hnodup : ((List.range (others.names.length + 1)).map (nameOf plan)).Nodup :=
    List.Nodup.map (nameOf_injective plan) List.nodup_range
  have hlength := (List.subperm_of_subset hnodup hmem).length_le
  simp only [List.length_map, List.length_range] at hlength
  omega

/-- All paths that staging comes to can be looked up. -/
structure Ample (temporary source : String) (others left : Entries) (plan : Plan) : Prop where
  directory : IsUsable temporary
  root : IsUsable source
  name : ∀ n ≤ others.names.length, IsEntryName (nameOf plan n)
  path : ∀ n ≤ others.names.length, IsUsable (Path.join temporary (nameOf plan n))
  sources : Addressable source (pruned left)
  copies : ∀ n ≤ others.names.length,
    Addressable (Path.join temporary (nameOf plan n)) (pruned left)

namespace Grounds

variable {fs : FileSystem} {temporary source : String} {top location : Location}
  {others left : Entries} (g : Grounds fs temporary source top location others left)
include g

theorem isFree_iff {name : String} (hn : IsName name) (hname : IsEntryName name)
    (hu : IsUsable (Path.join temporary name)) :
    isFree fs (Path.join temporary name) ↔ others.find? name = none := by
  obtain ⟨links, htop⟩ := g.temporary_leads
  cases hf : others.find? name with
  | none => simp [isFree, htop.lookup_missing hn hname hu g.others_eq hf]
  | some child =>
      cases child with
      | link target =>
          simp [isFree, htop.lookup_join hn hu, walk_link g.others_eq hname hf]
      | file contents executable =>
          simp [isFree, htop.lookup_join hn hu, walk_down g.others_eq hname hf, walk_nil,
            Node.get?_concat g.others_eq, hf]
      | directory inner =>
          simp [isFree, htop.lookup_join hn hu, walk_down g.others_eq hname hf, walk_nil,
            Node.get?_concat g.others_eq, hf]

theorem freshPath_free {plan : Plan} (h : Ample temporary source others left plan) :
    ∃ n ≤ others.names.length, freshPath fs temporary plan =
      Path.join temporary (nameOf plan n) ∧ others.find? (nameOf plan n) = none := by
  obtain ⟨links, htop⟩ := g.temporary_leads
  have hfree (n : Nat) (hn : n ≤ others.names.length) :
      isFree fs (Path.join temporary (nameOf plan n)) ↔ others.find? (nameOf plan n) = none :=
    g.isFree_iff (isName_nameOf plan n) (h.name n hn) (h.path n hn)
  unfold freshPath
  rw [htop.readDirectory_base h.directory g.others_eq]
  simp only [← Entries.length_names]
  cases hf : ((List.range (others.names.length + 1)).map fun n =>
      Path.join temporary (nameStem plan ++ suffix n)).find? (isFree fs) with
  | none =>
      obtain ⟨n, hn, hnone⟩ := exists_free_name others plan
      refine absurd ((hfree n hn).mpr hnone) (List.find?_eq_none.mp hf _ ?_)
      exact List.mem_map.mpr ⟨n, List.mem_range.mpr (by omega), rfl⟩
  | some path =>
      obtain ⟨n, hn, rfl⟩ := List.mem_map.mp (List.mem_of_find?_eq_some hf)
      have hn : n ≤ others.names.length := by simpa [Nat.lt_succ_iff] using hn
      exact ⟨n, hn, by rw [Option.getD_some, nameOf], (hfree n hn).mp (List.find?_some hf)⟩

theorem stage_succeeds {plan : Plan} (h : Ample temporary source others left plan) :
    ∃ workspace, (stage fs temporary source plan).2 = .ok workspace := by
  obtain ⟨n, hle, hfresh, hfree⟩ := g.freshPath_free h
  obtain ⟨links, htop⟩ := g.temporary_leads
  have hn := isName_nameOf plan n
  have hname := h.name n hle
  have hu := h.path n hle
  have hmake : fs.makeDirectory (Path.join temporary (nameOf plan n)) =
      .ok (opened fs top others (nameOf plan n)) := by
    rw [makeDirectory_eq, htop.lookup_missing hn hname hu g.others_eq hfree,
      ← g.placeAt_new_directory hfree]
  have hcopy := (g.puts_opened hn hname hfree hu).eq ⟨h.root, h.sources, h.copies n hle⟩
  unfold stage
  simp only [hfresh, hmake, hcopy]
  exact ⟨_, rfl⟩

end Grounds

end Workspace

end BuildMatrix

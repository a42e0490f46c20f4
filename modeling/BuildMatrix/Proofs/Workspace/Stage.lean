import BuildMatrix.Proofs.Matrix.Slug
import BuildMatrix.Proofs.Workspace.Traversal

/-!
# Staged workspaces

A workspace is made at a name that nothing had before. If staging succeeds, it holds the pruned copy
of the package root; whether it succeeds or not, nothing else changes.
-/

namespace BuildMatrix

open FileSystem

namespace FileSystem

theorem leads_down {root : Node} {links : Nat} {location down : Location} {entries inner : Entries}
    (hd : root.get? location = some (.directory entries)) (ht : entries.IsTree)
    (h : (Node.directory entries).get? down = some (.directory inner)) :
    Leads (fun _ => False) root links location down links (location ++ down) := by
  induction down generalizing location entries with
  | nil =>
      rw [List.append_nil]
      exact .done
  | cons name down ih =>
      obtain ⟨deeper, hchild, hdown⟩ := Node.exists_directory_of_get?_cons h
      obtain ⟨-, hname, hinner⟩ := ht.find? hchild
      have hget := (Node.get?_concat hd name).trans hchild
      refine .down hname (kindAt_of_get? hget) (by simp [Node.kind]) id ?_
      rw [show location ++ name :: down = location ++ [name] ++ down by simp]
      exact ih hget hinner hdown

end FileSystem

namespace Workspace

/-- The directories below one that a path leads to have other components than a directory that is
not below it. -/
theorem covers_of_resolves {avoid avoid' : Location → Prop} {base : FileSystem}
    {source target : String} {links links' : Nat} {location dest : Location} {entries : Entries}
    (hs : Resolves avoid base source links location)
    (hd : base.root.get? location = some (.directory entries)) (ht : entries.IsTree)
    (htarget : Resolves avoid' base target links' dest)
    (hdest : base.root.get? dest = some (.directory .nil)) (hout : ¬location <+: dest) :
    Covers base dest (Path.components target) links source location entries where
  resolves := resolves_under hs (by simp [kindAt_of_get? hd]) hdest
  directory := hd
  outside := by
    rintro ⟨rest, rfl⟩
    rw [Node.get?_append, hdest, Option.bind_some] at hd
    cases rest with
    | nil => exact hout (by simp)
    | cons name rest => cases hd
  tree := ht
  named down inner path _ hget habs hnames := by
    refine iff_of_false (fun heq => ?_) fun heq => hout ⟨down, heq⟩
    obtain ⟨habs', hfilter⟩ := Path.of_components_eq heq
    have hstart : base.startOf path = base.startOf source := by
      rw [startOf, startOf, habs]
    have hstart' : base.startOf path = base.startOf target := by
      rw [startOf, startOf, habs']
    have hleads : Leads (fun _ => False) base.root linkLimit (base.startOf path)
        (Path.names path) links (location ++ down) := by
      rw [hstart, hnames]
      exact (hs.leads.mono (by simp)).append (leads_down hd ht hget)
    have hdots := hleads.without_dots [] (Path.names path)
    have hdots' := htarget.leads.without_dots [] (Path.names target)
    rw [List.nil_append, hfilter, hstart'] at hdots
    exact hout ⟨down, (hdots.unique hdots').2⟩

theorem digits_suffix {n : Nat} {c : Char} (h : c ∈ (suffix n).toList) : c.isDigit := by
  simp only [suffix, String.toList_append, String.toList_ofList, List.mem_append] at h
  rcases h with h | h
  · rw [List.eq_of_mem_replicate h]
    rfl
  · rw [Nat.toString_eq_repr, Nat.toList_repr] at h
    exact Nat.isDigit_of_mem_toDigits (by decide) (by decide) h

def nameOf (plan : Plan) (n : Nat) : String := nameStem plan ++ suffix n

theorem toList_nameOf (plan : Plan) (n : Nat) : (nameOf plan n).toList =
    "ci-matrix-".toList ++ plan.slug.toList ++ '-' :: (suffix n).toList := by
  simp [nameOf, nameStem]

theorem isName_nameOf (plan : Plan) (n : Nat) : IsName (nameOf plan n) := by
  have hlist := toList_nameOf plan n
  have hhead : (nameOf plan n).toList.head? = some 'c' := by
    rw [hlist]
    rfl
  refine ⟨?_, ?_, ?_, ?_⟩
  · rintro h
    simp [h] at hhead
  · rw [hlist]
    simp only [List.mem_append, List.mem_cons, not_or]
    refine ⟨⟨by decide, plan.isName_slug.slash⟩, by decide, fun h => ?_⟩
    exact absurd (digits_suffix h) (by decide)
  · rintro h
    simp [h] at hhead
  · rintro h
    simp [h] at hhead

theorem freshPath_eq (fs : FileSystem) (temporary : String) (plan : Plan) :
    ∃ n, freshPath fs temporary plan = Path.join temporary (nameOf plan n) := by
  have hfind (taken : Nat) : ∃ n, ((((List.range (taken + 1)).map fun n =>
      Path.join temporary (nameStem plan ++ suffix n)).find? (isFree fs)).getD
        (Path.join temporary (nameStem plan ++ suffix taken))) =
          Path.join temporary (nameOf plan n) := by
    cases hf : List.find? (isFree fs)
      ((List.range (taken + 1)).map fun n => Path.join temporary (nameStem plan ++ suffix n)) with
    | none => exact ⟨taken, by rw [Option.getD_none, nameOf]⟩
    | some path =>
        obtain ⟨n, -, rfl⟩ := List.mem_map.mp (List.mem_of_find?_eq_some hf)
        exact ⟨n, by rw [Option.getD_some, nameOf]⟩
  exact hfind _

section
variable {avoid : Location → Prop} {fs files : FileSystem} {temporary source name : String}
  {links links' : Nat} {top location : Location} {entries : Entries} {plan : Plan}

theorem confined_remove (h : Resolves avoid fs temporary links top) (hn : IsName name) :
    Confined (top ++ [name] <+: ·) fs (remove fs ⟨Path.join temporary name⟩) := by
  unfold remove
  rcases fs.removeAll_cases (Path.join temporary name) with hsame | ⟨l, node, hl, hremoved⟩
  · rw [hsame]
    exact .refl _ _
  · obtain rfl : l = top ++ [name] := h.location_eq hn hl
    rw [hremoved]
    exact confined_removeAt (isClosed_below _) List.prefix_rfl fs

/-- What staging does: nothing, or something at a name that nothing had. -/
inductive Stages (plan : Plan) (temporary : String) (top : Location) (entries : Entries)
    (fs : FileSystem) : FileSystem × Except WorkspaceError Workspace → Prop
  | notMade (e : WorkspaceError) : Stages plan temporary top entries fs (fs, .error e)
  | failed (n : Nat) (files : FileSystem) (e : WorkspaceError) :
      fs.root.kindAt (top ++ [nameOf plan n]) = none →
      Confined (top ++ [nameOf plan n] <+: ·) fs files →
      Stages plan temporary top entries fs (files, .error e)
  | done (n : Nat) (files : FileSystem) : fs.root.kindAt (top ++ [nameOf plan n]) = none →
      Confined (top ++ [nameOf plan n] <+: ·) fs files →
      files.root.get? (top ++ [nameOf plan n]) = some (.directory (pruned entries)) →
      IsEntryName (nameOf plan n) → IsUsable (Path.join temporary (nameOf plan n)) →
      Stages plan temporary top entries fs (files, .ok ⟨Path.join temporary (nameOf plan n)⟩)

theorem Stages.of_ok {result : Except WorkspaceError Workspace}
    (h : Stages plan temporary top entries fs (files, result)) {workspace : Workspace}
    (hr : result = .ok workspace) :
    ∃ n, workspace.path = Path.join temporary (nameOf plan n) ∧
      files.root.get? (top ++ [nameOf plan n]) = some (.directory (pruned entries)) := by
  cases h with
  | notMade e => cases hr
  | failed n _ e => cases hr
  | done n _ _ _ hget => exact ⟨n, by rw [← Except.ok.inj hr], hget⟩

theorem copyTree_spec {target : String} (hs : Resolves avoid fs source links location)
    (hd : fs.root.get? location = some (.directory entries)) (ht : entries.IsTree)
    (htarget : Resolves (Under top) fs target links' top)
    (hnew : ∀ follow, fs.lookup follow target = .ok (.present top (.directory .nil)))
    (hout : ¬location <+: top) :
    ∃ after, (copyTree fs source target).1 = fs.withEntries top after ∧
      ∀ count, (copyTree fs source target).2 = .ok count → after = pruned entries := by
  have hget : fs.root.get? top = some (.directory .nil) := found_of_lookup (hnew true)
  have hmake : fs.makeDirectories target = (fs, .ok ()) :=
    makeDirectories_of_present (by simp [isDirectory, node?, hnew]) (hnew false) (by simp)
  obtain ⟨after, hfiles, hok⟩ := (copyTree_puts hget
    (covers_of_resolves hs hd ht htarget hget hout) hmake htarget).changes
  refine ⟨after, hfiles, fun count hcount => ?_⟩
  rw [(hok count hcount).1, kept_eq_pruned ht fun rest heq => absurd ⟨rest, heq.symm⟩ hout]
  rfl

theorem stage_spec (htop : Resolves avoid fs temporary links top)
    (hs : Resolves avoid fs source links' location)
    (hd : fs.root.get? location = some (.directory entries)) (ht : entries.IsTree)
    (hout : ¬location <+: top) (plan : Plan) :
    Stages plan temporary top entries fs (stage fs temporary source plan) := by
  obtain ⟨n, hfresh⟩ := freshPath_eq fs temporary plan
  have hn := isName_nameOf plan n
  unfold stage
  simp only [hfresh]
  cases hm : fs.makeDirectory (Path.join temporary (nameOf plan n)) with
  | error cause => exact .notMade _
  | ok made =>
      obtain ⟨l, hl, hmade⟩ := makeDirectory_ok hm
      obtain rfl : l = top ++ [nameOf plan n] := htop.location_eq hn hl
      obtain ⟨parent, others, name, heq, hname, hparent, hmissing⟩ := found_of_lookup hl
      obtain ⟨rfl, hlast⟩ := List.append_inj' heq rfl
      obtain rfl : nameOf plan n = name := by simpa using hlast
      have hu := isUsable_of_lookup hl
      have hget : fs.root.get? (top ++ [nameOf plan n]) = none := by
        rw [Node.get?_concat hparent, hmissing]
      -- Nothing is at the new location or below it, so nothing leads there.
      have habsent (l : Location) (hp : top ++ [nameOf plan n] <+: l) :
          fs.root.kindAt l = none := by
        obtain ⟨rest, rfl⟩ := hp
        rw [Node.kindAt, Node.get?_append, hget]
        rfl
      have hconf : Confined (top ++ [nameOf plan n] <+: ·) fs made :=
        hmade ▸ confined_placeAt_self _ _ _
      have htop' := ((htop.avoid_absent (by simp [Node.kindAt, hparent]) habsent).mono
        fun _ h => .inr h).frame (isClosed_below _) hconf
      have hs' := ((hs.avoid_absent (by simp [Node.kindAt, hd]) habsent).mono
        fun _ h => .inr h).frame (isClosed_below _) hconf
      have hout' : ¬location <+: top ++ [nameOf plan n] := by
        intro hp
        rcases List.prefix_concat_iff.mp hp with rfl | hp
        · simp [hget] at hd
        · exact hout hp
      have hd' : made.root.get? location = some (.directory entries) := by
        rw [hconf.get?_eq location fun rest hp => ?_, hd]
        rcases List.prefix_or_prefix_of_prefix hp (List.prefix_append location rest) with h | h
        · have hnone := habsent _ h
          simp [Node.kindAt, hd] at hnone
        · exact hout' h
      have hparent' : made.root.get? top =
          some (.directory (others.insert (nameOf plan n) (.directory .nil))) := by
        rw [hmade, placeAt_concat hparent, get?_withEntries hparent]
      have hnew (follow : Bool) : made.lookup follow (Path.join temporary (nameOf plan n)) =
          .ok (.present (top ++ [nameOf plan n]) (.directory .nil)) :=
        htop'.lookup_entry hn hu hname hparent' (Entries.find?_insert_self _ _ _) (by simp)
      have hget' := found_of_lookup (hnew true)
      have htarget := (htop'.mono fun _ (h : Under (top ++ [nameOf plan n]) _) => h.1).join hn hname
        (kindAt_of_get? hget') (by simp [Under])
      obtain ⟨after, hfiles, hok⟩ := copyTree_spec hs' hd' ht htarget hnew hout'
      have hconf' := confined_placeAt_self made (top ++ [nameOf plan n]) (.directory after)
      simp only
      generalize copyTree made source _ = result at hfiles hok ⊢
      rcases result with ⟨files, e | count⟩
      · obtain rfl : files = _ := hfiles
        refine .failed n _ e (habsent _ List.prefix_rfl) ((hconf.trans hconf').trans ?_)
        exact confined_remove (htop'.frame (isClosed_below _) hconf') hn
      · obtain rfl : files = _ := hfiles
        obtain rfl : after = pruned entries := hok count rfl
        have hcopied := get?_withEntries hget' (pruned entries)
        exact .done n _ (habsent _ List.prefix_rfl) (hconf.trans hconf') hcopied hname hu

end

end Workspace

end BuildMatrix

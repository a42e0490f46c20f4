import BuildMatrix.Proofs.Environment
import BuildMatrix.Workflow.Reading

/-!
# Configurations that are read

The variables of a configuration that was read are in the order of their names, also if the text
has them in another order or has one of them twice. No two keys of its matrix are the same, since a
text that repeats a key is refused.
-/

namespace BuildMatrix

open Yaml (Reader)

namespace Yaml

def KeysDiffer (pairs : List (Value × Value)) : Prop :=
  pairs.Pairwise fun a b => a.1.same b.1 = false

end Yaml

namespace Yaml.Reader

variable {α β : Type} {P : α → Prop} {Q : β → Prop}

/-- All that a reader can give, from any document, has a property. -/
def Gives (P : α → Prop) (reader : Reader α) : Prop :=
  ∀ document left a left', (reader.run document).run left = some (a, left') → P a

theorem gives_pure {a : α} (h : P a) : Gives P (pure a) := by
  intro document left a' left' hrun
  cases hrun
  exact h

theorem Gives.bind {reader : Reader α} {next : α → Reader β} (h : Gives P reader)
    (hnext : ∀ a, P a → Gives Q (next a)) : Gives Q (reader >>= next) := by
  intro document left b left' hrun
  obtain ⟨⟨a, between⟩, ha, hb⟩ := Option.bind_eq_some_iff.mp hrun
  exact hnext a (h document left a between ha) document between b left' hb

/-- What comes after a reader may have the property whatever this reader gives. -/
theorem gives_bind (reader : Reader α) {next : α → Reader β} (h : ∀ a, Gives Q (next a)) :
    Gives Q (reader >>= next) :=
  Gives.bind (P := fun _ => True) (fun _ _ _ _ _ => trivial) fun a _ => h a

theorem gives_refuse : Gives P (refuse : Reader α) := by
  intro document left a left' hrun
  cases hrun

theorem gives_foldlM {step : β → α → Reader β} (h : ∀ b a, Q b → Gives Q (step b a)) {b : β}
    (hb : Q b) (as : List α) : Gives Q (as.foldlM step b) := by
  induction as generalizing b with
  | nil => exact gives_pure hb
  | cons a as ih =>
    rw [List.foldlM_cons]
    exact (h b a hb).bind fun next hnext => ih hnext

theorem gives_member {members : List (String × Node)} {name : String} {default : α}
    {read : Node → Reader α} (hdefault : P default) (hread : ∀ node, Gives P (read node)) :
    Gives P (member members name default read) := by
  unfold member
  split
  · exact hread _
  · exact gives_pure hdefault

theorem Gives.of_run? {reader : Reader α} (h : Gives P reader) {document : Document} {a : α}
    (hrun : run? document reader = some a) : P a := by
  obtain ⟨⟨a', left⟩, ha, rfl⟩ := Option.map_eq_some_iff.mp hrun
  exact h document _ a' left ha

theorem gives_addPair {pairs : List (Value × Value)} (h : KeysDiffer pairs) (key value : Value) :
    Gives KeysDiffer (addPair pairs key value) := by
  unfold addPair
  split
  · exact gives_refuse
  · next hnew =>
    apply gives_pure
    rw [KeysDiffer, List.pairwise_append]
    refine ⟨h, List.pairwise_singleton _ _, fun pair hpair other hother => ?_⟩
    rw [List.mem_singleton.mp hother]
    simpa using fun hsame => hnew (List.any_eq_true.mpr ⟨pair, hpair, hsame⟩)

end Yaml.Reader

open Yaml Yaml.Reader

theorem Environment.gives_read (node : Yaml.Node) :
    Gives Environment.IsAscending (Environment.read node) :=
  gives_bind _ fun _ => gives_bind _ fun entries => gives_pure (isAscending_ofList entries)

theorem EnvironmentConfig.gives_read (node : Yaml.Node) :
    Gives (fun config => config.extra.IsAscending) (EnvironmentConfig.read node) := by
  unfold EnvironmentConfig.read
  refine gives_bind _ fun members => gives_bind _ fun skip => gives_bind _ fun unattended => ?_
  have hextra : Gives Environment.IsAscending
      (member members "extra" ({} : EnvironmentConfig).extra Environment.read) :=
    gives_member List.Pairwise.nil Environment.gives_read
  exact hextra.bind fun extra h => gives_pure h

theorem gives_readMatrix (node : Yaml.Node) : Gives KeysDiffer (readMatrix node) := by
  refine gives_bind _ fun pairs => gives_foldlM (fun done pair h => ?_) List.Pairwise.nil pairs
  exact gives_bind _ fun key => gives_bind _ fun value => gives_addPair h key value

namespace WorkflowConfig

/-- What is true of a configuration because it was read. -/
structure IsAsRead (config : WorkflowConfig) : Prop where
  ascending : config.environment.extra.IsAscending
  keysDiffer : KeysDiffer config.matrix

theorem isAsRead_default : IsAsRead {} :=
  ⟨List.Pairwise.nil, List.pairwise_singleton _ _⟩

theorem gives_read (node : Yaml.Node) : Gives IsAsRead (WorkflowConfig.read node) := by
  unfold WorkflowConfig.read
  refine gives_bind _ fun members => gives_bind _ fun name => gives_bind _ fun triggers => ?_
  refine gives_bind _ fun axis => ?_
  have hmatrix : Gives KeysDiffer
      (member members "matrix" ({} : WorkflowConfig).matrix readMatrix) :=
    gives_member isAsRead_default.keysDiffer gives_readMatrix
  refine hmatrix.bind fun matrix hkeys => gives_bind _ fun cache => ?_
  have henvironment : Gives (fun config => config.extra.IsAscending)
      (member members "env" ({} : WorkflowConfig).environment EnvironmentConfig.read) :=
    gives_member isAsRead_default.ascending EnvironmentConfig.gives_read
  refine henvironment.bind fun environment hascending => ?_
  exact gives_bind _ fun _ => gives_bind _ fun _ => gives_bind _ fun _ =>
    gives_pure ⟨hascending, hkeys⟩

theorem isAsRead_of_ofYaml? {text : String} {config : WorkflowConfig}
    (h : ofYaml? text = some config) : config.IsAsRead := by
  obtain ⟨document, -, h⟩ := Option.bind_eq_some_iff.mp h
  split at h
  · cases h
    exact isAsRead_default
  · obtain ⟨root, -, h⟩ := Option.bind_eq_some_iff.mp h
    exact (gives_read root).of_run? h

/-- The variables of a configuration that was read are in the order of their names. -/
theorem isAscending_of_ofYaml? {text : String} {config : WorkflowConfig}
    (h : ofYaml? text = some config) : config.environment.extra.IsAscending :=
  (isAsRead_of_ofYaml? h).ascending

end WorkflowConfig

end BuildMatrix

import BuildMatrix.Cache.Policy
import BuildMatrix.Proofs.Cache.Key
import BuildMatrix.Proofs.Cache.Precedence

/-!
# Which namespaces the default start of keys reaches

Without restore keys of its own a policy restores from the keys that start with its namespace and a
dash. These are the keys of its namespace, and those of each namespace that goes on with a dash
where this one ends.
-/

namespace BuildMatrix

namespace CachePolicy

/-- A policy with this literal derives a key with this text from some manifest. -/
def MadeIn (literal text : String) : Prop :=
  ∃ (policy : CachePolicy) (files : FileSystem) (root : String) (key : CacheKey),
    policy.literal = literal ∧ policy.keyFor files root = .ok key ∧ key.render = text

def GoesOn (literal longer : String) : Prop := literal.toList ++ ['-'] <+: longer.toList

def Reaches (literal text : String) : Prop :=
  ∃ other, MadeIn other text ∧ (other = literal ∨ GoesOn literal other)

section
variable {policy : CachePolicy} {files : FileSystem} {root : String} {key : CacheKey}
  {literal literal' text : String}

theorem keyFor_eq (h : policy.keyFor files root = .ok key) :
    ∃ manifest, key = ⟨policy.space, CacheKey.digestOf manifest⟩ := by
  unfold keyFor CacheKey.ofManifest at h
  split at h
  · next contents _ => exact ⟨some contents, (Except.ok.inj h).symm⟩
  · exact ⟨none, (Except.ok.inj h).symm⟩
  · cases h

theorem toList_space (policy : CachePolicy) :
    policy.space.toList = host.toList ++ '-' :: policy.literal.toList := by
  rw [space, String.toList_append, String.toList_append, List.append_assoc]
  rfl

theorem MadeIn.toList_eq (h : MadeIn literal text) :
    ∃ manifest, text.toList = host.toList ++ '-' ::
      (literal.toList ++ '-' :: (CacheKey.digestOf manifest).toList) := by
  obtain ⟨policy, files, root, key, rfl, hkey, rfl⟩ := h
  obtain ⟨manifest, rfl⟩ := keyFor_eq hkey
  refine ⟨manifest, ?_⟩
  rw [CacheKey.toList_render, toList_space, List.append_assoc, List.cons_append]

theorem MadeIn.unique (h : MadeIn literal text) (h' : MadeIn literal' text) :
    literal = literal' := by
  obtain ⟨manifest, htext⟩ := h.toList_eq
  obtain ⟨manifest', htext'⟩ := h'.toList_eq
  rw [htext', List.append_cancel_left_eq, List.cons.injEq] at htext
  have hsame := (Text.append_cons_inj (CacheKey.dash_not_mem_digestOf manifest')
    (CacheKey.dash_not_mem_digestOf manifest)).mp htext.2
  exact String.toList_inj.mp hsame.1.symm

theorem toList_stem (h : policy.keyFor files root = .ok key) :
    key.stem.toList = host.toList ++ '-' :: (policy.literal.toList ++ ['-']) := by
  obtain ⟨manifest, rfl⟩ := keyFor_eq h
  rw [CacheKey.stem, String.toList_append, toList_space, List.append_assoc, List.cons_append]
  rfl

/-- The start of keys that a namespace gives is the front of the keys of this namespace and of those
that go on with a dash. -/
theorem stem_prefix_iff (hkey : policy.keyFor files root = .ok key) (h : MadeIn literal text) :
    key.stem.toList <+: text.toList ↔ literal = policy.literal ∨ GoesOn policy.literal literal := by
  obtain ⟨manifest, htext⟩ := h.toList_eq
  rw [toList_stem hkey, htext, List.prefix_append_right_inj, List.cons_prefix_cons,
    Text.append_singleton_prefix_iff (CacheKey.dash_not_mem_digestOf manifest), String.toList_inj,
    eq_comm (a := policy.literal)]
  simp [GoesOn]

theorem stem_prefix_iff_reaches (hkey : policy.keyFor files root = .ok key)
    (hmade : ∃ other, MadeIn other text) :
    key.stem.toList <+: text.toList ↔ Reaches policy.literal text := by
  constructor
  · intro h
    obtain ⟨other, hother⟩ := hmade
    exact ⟨other, hother, (stem_prefix_iff hkey hother).mp h⟩
  · intro h
    obtain ⟨other, hother, hreach⟩ := h
    exact (stem_prefix_iff hkey hother).mpr hreach

end

/-- What a policy without restore keys restores from, in a store of keys that were derived. -/
structure RestoresFrom (policy : CachePolicy) (store : CacheStore) (key : CacheKey) : Prop where
  /-- There is one start of keys that may stand in. -/
  stems : policy.stemsFor key = [key.stem]
  /-- The stored keys with this start are those of the namespace and of each that goes on with a
  dash. -/
  reaches : ∀ entry ∈ store.entries,
    (key.stem.toList <+: entry.key.toList ↔ Reaches policy.literal entry.key)
  /-- The last written of them is found if the exact key is not, whichever calls fail. -/
  partially : ∀ fails text payload,
    (store.resolveDespite fails key (policy.stemsFor key) = ⟨.partialHit text, payload⟩ ↔
      store.Lacks fails key ∧ store.Answers .newest (fails 1) ∧
        ∃ entry, store.IsNewest key.stem entry ∧ entry.key = text ∧ entry.payload = payload)
  /-- It is the start of the namespace's own keys and of no others exactly if no stored key is of a
  namespace that goes on with a dash. -/
  own_iff : (∀ entry ∈ store.entries,
      (key.stem.toList <+: entry.key.toList ↔ MadeIn policy.literal entry.key)) ↔
    ∀ entry ∈ store.entries, ∀ other, MadeIn other entry.key → ¬GoesOn policy.literal other
  /-- In such a store only keys of the namespace stand in. -/
  own : (∀ entry ∈ store.entries, ∀ other, MadeIn other entry.key → ¬GoesOn policy.literal other) →
    ∀ fails text payload,
      store.resolveDespite fails key (policy.stemsFor key) = ⟨.partialHit text, payload⟩ →
      MadeIn policy.literal text

section
variable {policy : CachePolicy} {store : CacheStore} {files : FileSystem} {root : String}
  {key : CacheKey}

theorem stemsFor_of_none (hnone : policy.restoreKeys = []) (key : CacheKey) :
    policy.stemsFor key = [key.stem] := by
  rw [stemsFor, hnone]
  rfl

theorem stem_is_own_iff (hmade : ∀ entry ∈ store.entries, ∃ literal, MadeIn literal entry.key)
    (hkey : policy.keyFor files root = .ok key) :
    (∀ entry ∈ store.entries,
      (key.stem.toList <+: entry.key.toList ↔ MadeIn policy.literal entry.key)) ↔
    ∀ entry ∈ store.entries, ∀ other, MadeIn other entry.key → ¬GoesOn policy.literal other := by
  constructor
  · intro hown entry he other hother hgoesOn
    have hstem := (stem_prefix_iff hkey hother).mpr (.inr hgoesOn)
    obtain rfl := ((hown entry he).mp hstem).unique hother
    -- No literal is longer than itself.
    have hlength := hgoesOn.length_le
    rw [List.length_append, List.length_singleton] at hlength
    omega
  · intro hnone entry he
    constructor
    · intro hstem
      obtain ⟨other, hother, hreach⟩ := (stem_prefix_iff_reaches hkey (hmade entry he)).mp hstem
      cases hreach with
      | inl hsame => exact hsame ▸ hother
      | inr hgoesOn => exact absurd hgoesOn (hnone entry he other hother)
    · intro hown
      exact (stem_prefix_iff hkey hown).mpr (.inl rfl)

/-- Where every stored key was derived from a manifest, a policy without restore keys restores from
the keys of its namespace and of the namespaces that go on with a dash where its own ends. -/
theorem restoresFrom_of_derived (hstore : store.WellFormed)
    (hmade : ∀ entry ∈ store.entries, ∃ literal, MadeIn literal entry.key)
    (hnone : policy.restoreKeys = []) (hkey : policy.keyFor files root = .ok key) :
    policy.RestoresFrom store key where
  stems := stemsFor_of_none hnone key
  reaches entry he := stem_prefix_iff_reaches hkey (hmade entry he)
  partially fails text payload := by
    rw [stemsFor_of_none hnone]
    exact CacheStore.resolveDespite_singleton_eq_partialHit_iff hstore fails key _ text payload
  own_iff := stem_is_own_iff hmade hkey
  own hgoesOn fails text payload hfound := by
    rw [stemsFor_of_none hnone,
      CacheStore.resolveDespite_singleton_eq_partialHit_iff hstore] at hfound
    obtain ⟨-, -, entry, hnewest, rfl, -⟩ := hfound
    obtain ⟨hmatches, older, newer, hentries, -⟩ := hnewest
    have he : entry ∈ store.entries := by simp [hentries]
    exact ((stem_is_own_iff hmade hkey).mpr hgoesOn entry he).mp hmatches.2

end

def inNamespace (literal : String) : CachePolicy := ⟨"pins", "/cache", literal, []⟩

/-- Two packages without manifests share a store, one in the namespace `pip-dev`. -/
def sharedByTwo : CacheStore :=
  ⟨.log ⟨[⟨"Linux-conda-0000000000000000", [97], .epoch⟩,
    ⟨"Linux-pip-dev-0000000000000000", [98], .epoch⟩]⟩, []⟩

theorem keyFor_inNamespace (literal : String) :
    (inNamespace literal).keyFor .empty "/" =
      .ok ⟨(inNamespace literal).space, CacheKey.missingDigest⟩ := by
  have hread : FileSystem.empty.read ((inNamespace literal).manifestIn "/") = .error .missing := by
    show FileSystem.empty.read (Path.join "/" "pins") = .error .missing
    decide +kernel
  rw [keyFor, CacheKey.ofManifest, hread]

theorem madeIn_missing (literal : String) :
    MadeIn literal (CacheKey.render ⟨(inNamespace literal).space, CacheKey.missingDigest⟩) :=
  ⟨inNamespace literal, .empty, "/", _, rfl, keyFor_inNamespace literal, rfl⟩

theorem madeIn_conda : MadeIn "conda" "Linux-conda-0000000000000000" := madeIn_missing "conda"

theorem madeIn_pipDev : MadeIn "pip-dev" "Linux-pip-dev-0000000000000000" :=
  madeIn_missing "pip-dev"

theorem madeIn_sharedByTwo :
    ∀ entry ∈ sharedByTwo.entries, ∃ literal, MadeIn literal entry.key := by
  intro entry he
  cases he with
  | head => exact ⟨"conda", madeIn_conda⟩
  | tail _ he =>
    obtain rfl := List.mem_singleton.mp he
    exact ⟨"pip-dev", madeIn_pipDev⟩

/-- In the namespace `pip` a key of the namespace `pip-dev` stands in. -/
theorem restores_from_other_namespace :
    (∀ entry ∈ sharedByTwo.entries, ∃ literal, MadeIn literal entry.key) ∧
    (inNamespace "pip").restoreKeys = [] ∧
    (inNamespace "pip").keyFor .empty "/" = .ok ⟨"Linux-pip", "0000000000000000"⟩ ∧
    sharedByTwo.resolve ⟨"Linux-pip", "0000000000000000"⟩
      ((inNamespace "pip").stemsFor ⟨"Linux-pip", "0000000000000000"⟩) =
        ⟨.partialHit "Linux-pip-dev-0000000000000000", [98]⟩ ∧
    MadeIn "pip-dev" "Linux-pip-dev-0000000000000000" ∧
    ¬MadeIn "pip" "Linux-pip-dev-0000000000000000" := by
  refine ⟨madeIn_sharedByTwo, rfl, keyFor_inNamespace "pip", by decide, madeIn_pipDev, fun h => ?_⟩
  exact absurd (h.unique madeIn_pipDev) (by decide)

theorem restoresFrom_of_derived_pip :
    sharedByTwo.WellFormed ∧ (∀ entry ∈ sharedByTwo.entries, ∃ literal, MadeIn literal entry.key) ∧
    (inNamespace "pip").restoreKeys = [] ∧
    (inNamespace "pip").keyFor .empty "/" =
      .ok ⟨(inNamespace "pip").space, CacheKey.missingDigest⟩ ∧
    (inNamespace "pip").RestoresFrom sharedByTwo
      ⟨(inNamespace "pip").space, CacheKey.missingDigest⟩ := by
  have hstore : sharedByTwo.WellFormed := ⟨trivial, trivial, by decide⟩
  exact ⟨hstore, madeIn_sharedByTwo, rfl, keyFor_inNamespace "pip",
    restoresFrom_of_derived hstore madeIn_sharedByTwo rfl (keyFor_inNamespace "pip")⟩

end CachePolicy

end BuildMatrix

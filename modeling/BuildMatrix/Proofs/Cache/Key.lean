import BuildMatrix.Cache.Key
import BuildMatrix.Ident
import Mathlib.Data.Nat.Basic

/-!
# Keys are told apart by their texts

The text of a key is a namespace, a dash and a digest. A namespace may have dashes of its own, but
no digest has one, so the last dash of the text is the one between the two. What stands for the
digest of a missing manifest is shorter than every digest.
-/

namespace BuildMatrix

namespace Text

variable {a : Char} {s t d e : List Char}

/-- A front that ends in a character is all that stands before the last occurrence of it, or is
over before that. -/
theorem append_singleton_prefix_iff (hd : a ∉ d) :
    s ++ [a] <+: t ++ a :: d ↔ s = t ∨ s ++ [a] <+: t := by
  constructor
  · intro h
    obtain ⟨rest, hrest⟩ := h
    rw [List.append_assoc, List.singleton_append] at hrest
    cases List.append_eq_append_iff.mp hrest with
    | inl hshorter =>
      obtain ⟨more, ht, hmore⟩ := hshorter
      cases more with
      | nil => exact .inl (by simp [ht])
      | cons b more =>
        rw [List.cons_append, List.cons.injEq] at hmore
        exact .inr ⟨more, by rw [ht, hmore.1, List.append_assoc, List.singleton_append]⟩
    | inr hlonger =>
      obtain ⟨more, hs, hmore⟩ := hlonger
      cases more with
      | nil => exact .inl (by simp [hs])
      | cons b more =>
        -- The character would occur again, behind its last occurrence.
        rw [List.cons_append, List.cons.injEq] at hmore
        exact absurd (hmore.2 ▸ List.mem_append_right more List.mem_cons_self) hd
  · intro h
    cases h with
    | inl he => exact ⟨d, by simp [he]⟩
    | inr hp => exact hp.trans (List.prefix_append t _)

theorem append_cons_inj (hd : a ∉ d) (he : a ∉ e) :
    s ++ a :: d = t ++ a :: e ↔ s = t ∧ d = e := by
  constructor
  · intro h
    have hfront (u v : List Char) : u ++ [a] <+: u ++ a :: v := ⟨v, by simp⟩
    have hst : s = t ∨ s ++ [a] <+: t := (append_singleton_prefix_iff he).mp (h ▸ hfront s d)
    have hts : t = s ∨ t ++ [a] <+: s := (append_singleton_prefix_iff hd).mp (h ▸ hfront t e)
    have hsame : s = t := by
      cases hst with
      | inl he => exact he
      | inr hp =>
        cases hts with
        | inl he => exact he.symm
        | inr hq =>
          have hs := hp.length_le
          have ht := hq.length_le
          simp only [List.length_append, List.length_singleton] at hs ht
          omega
    subst hsame
    exact ⟨rfl, (List.cons.inj (List.append_cancel_left h)).2⟩
  · intro h
    rw [h.1, h.2]

end Text

namespace Digest

theorem isLowerHexDigit_toDigits {n : Nat} {c : Char} (h : c ∈ Nat.toDigits 16 n) :
    isLowerHexDigit c := by
  have hdigit : ∀ k < 16, isLowerHexDigit (Nat.digitChar k) := by decide
  induction n using Nat.strongRecOn with
  | ind n ih =>
    rw [Nat.toDigits_eq_if (by decide)] at h
    split at h
    · next hlt => exact List.mem_singleton.mp h ▸ hdigit n hlt
    · next hge =>
        cases List.mem_append.mp h with
        | inl hfront => exact ih (n / 16) (by omega) hfront
        | inr hlast =>
          exact List.mem_singleton.mp hlast ▸ hdigit (n % 16) (Nat.mod_lt n (by decide))

theorem length_hexWord (w : UInt32) : (hexWord w).length = 8 := by
  have hle : (Nat.toDigits 16 w.toNat).length ≤ 8 := by
    rw [Nat.length_toDigits_le_iff (by decide) (by decide)]
    exact w.toNat_lt
  simp only [hexWord, List.length_append, List.length_replicate]
  omega

theorem isLowerHexDigit_hexWord {w : UInt32} {c : Char} (h : c ∈ hexWord w) :
    isLowerHexDigit c := by
  cases List.mem_append.mp h with
  | inl hzero =>
    rw [List.eq_of_mem_replicate hzero]
    decide
  | inr hdigit => exact isLowerHexDigit_toDigits hdigit

theorem length_sha256 (message : List UInt8) : (sha256 message).toList.length = 64 := by
  simp only [sha256, String.toList_ofList, List.length_flatMap, List.map_cons, List.map_nil,
    length_hexWord]
  rfl

theorem isLowerHexDigit_sha256 {message : List UInt8} {c : Char}
    (h : c ∈ (sha256 message).toList) : isLowerHexDigit c := by
  rw [sha256, String.toList_ofList] at h
  obtain ⟨w, -, hc⟩ := List.mem_flatMap.mp h
  exact isLowerHexDigit_hexWord hc

end Digest

namespace CacheKey

/-- The digest of a manifest, or what stands for that of a missing one. -/
def digestOf (manifest : Option Bytes) : String :=
  match manifest with
  | none => missingDigest
  | some contents => Digest.sha256 contents

def Finds (files : FileSystem) (path : String) (manifest : Option Bytes) : Prop :=
  match manifest with
  | none => files.read path = .error .missing
  | some contents => files.read path = .ok contents

theorem dash_not_mem_digestOf (manifest : Option Bytes) : '-' ∉ (digestOf manifest).toList := by
  intro h
  cases manifest with
  | none => exact absurd h (by decide)
  | some contents => exact absurd (Digest.isLowerHexDigit_sha256 h) (by decide)

theorem sha256_ne_missingDigest (contents : Bytes) : Digest.sha256 contents ≠ missingDigest := by
  intro h
  have hlength := Digest.length_sha256 contents
  rw [h] at hlength
  exact absurd hlength (by decide)

theorem digestOf_eq_iff {manifest₁ manifest₂ : Option Bytes} :
    digestOf manifest₁ = digestOf manifest₂ ↔ manifest₁ = none ∧ manifest₂ = none ∨
      ∃ contents₁ contents₂, manifest₁ = some contents₁ ∧ manifest₂ = some contents₂ ∧
        Digest.sha256 contents₁ = Digest.sha256 contents₂ := by
  cases manifest₁ with
  | none =>
    cases manifest₂ with
    | none => simp
    | some contents => simpa [digestOf] using (sha256_ne_missingDigest contents).symm
  | some contents =>
    cases manifest₂ with
    | none => simpa [digestOf] using sha256_ne_missingDigest contents
    | some contents₂ => simp [digestOf]

section
variable {files files₁ files₂ : FileSystem} {path path₁ path₂ : String}
  {manifest manifest₁ manifest₂ : Option Bytes}

theorem ofManifest_of_finds (h : Finds files path manifest) (space : String) :
    ofManifest files space path = .ok ⟨space, digestOf manifest⟩ := by
  cases manifest with
  | none =>
    have hread : files.read path = .error .missing := h
    simp only [ofManifest, hread, digestOf]
  | some contents =>
    have hread : files.read path = .ok contents := h
    simp only [ofManifest, hread, digestOf, ofBytes]

theorem toList_render (key : CacheKey) :
    key.render.toList = key.space.toList ++ '-' :: key.digest.toList := by
  rw [render, String.toList_append, String.toList_append, List.append_assoc]
  rfl

theorem render_eq_iff (space₁ space₂ : String) (manifest₁ manifest₂ : Option Bytes) :
    render ⟨space₁, digestOf manifest₁⟩ = render ⟨space₂, digestOf manifest₂⟩ ↔
      space₁ = space₂ ∧ digestOf manifest₁ = digestOf manifest₂ := by
  rw [← String.toList_inj, toList_render, toList_render,
    Text.append_cons_inj (dash_not_mem_digestOf manifest₁) (dash_not_mem_digestOf manifest₂),
    String.toList_inj, String.toList_inj]

/-- Each manifest that is missing or a file has a key in every namespace. Two such keys have one
text exactly if their namespaces are the same and the manifests are both missing or both files with
one digest. -/
theorem render_ofManifest_eq_iff (h₁ : Finds files₁ path₁ manifest₁)
    (h₂ : Finds files₂ path₂ manifest₂) (space₁ space₂ : String) :
    ∃ key₁ key₂, ofManifest files₁ space₁ path₁ = .ok key₁ ∧
      ofManifest files₂ space₂ path₂ = .ok key₂ ∧
      (key₁.render = key₂.render ↔ space₁ = space₂ ∧
        (manifest₁ = none ∧ manifest₂ = none ∨
          ∃ contents₁ contents₂, manifest₁ = some contents₁ ∧ manifest₂ = some contents₂ ∧
            Digest.sha256 contents₁ = Digest.sha256 contents₂)) := by
  refine ⟨_, _, ofManifest_of_finds h₁ space₁, ofManifest_of_finds h₂ space₂, ?_⟩
  rw [render_eq_iff, digestOf_eq_iff]

end

def letterHost : FileSystem := ⟨.directory (.cons "pins" (.file [0x73] false) .nil), []⟩

/-- A file and a missing manifest have two keys, also in one namespace. -/
theorem render_ofManifest_letter :
    Finds letterHost "/pins" (some [0x73]) ∧ Finds .empty "/pins" none ∧
      ∃ key₁ key₂, ofManifest letterHost "Linux-pip" "/pins" = .ok key₁ ∧
        ofManifest .empty "Linux-pip" "/pins" = .ok key₂ ∧ key₁.render ≠ key₂.render := by
  have hfile : Finds letterHost "/pins" (some [0x73]) := by
    show letterHost.read "/pins" = .ok [0x73]
    decide +kernel
  have hmissing : Finds .empty "/pins" none := by
    show FileSystem.empty.read "/pins" = .error .missing
    decide +kernel
  obtain ⟨key₁, key₂, hkey₁, hkey₂, hiff⟩ :=
    render_ofManifest_eq_iff hfile hmissing "Linux-pip" "Linux-pip"
  refine ⟨hfile, hmissing, key₁, key₂, hkey₁, hkey₂, fun he => ?_⟩
  have hsame := (hiff.mp he).2
  simp at hsame

end CacheKey

end BuildMatrix

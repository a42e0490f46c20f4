import BuildMatrix.Digest.Sha256
import BuildMatrix.FileSystem.Operations

/-!
# Cache keys

A stored dependency cache is named by a namespace and a digest of the manifest from which the
dependencies were installed. Equal manifests in one namespace have the same key.
-/

namespace BuildMatrix

/-- The name of a stored dependency cache. -/
structure CacheKey where
  /-- The host and a literal, such as `Linux-pip`. -/
  space : String
  /-- The digest of the manifest as lowercase hexadecimal digits. -/
  digest : String
deriving DecidableEq, Repr

/-- Why no key can be derived from a manifest. -/
structure ManifestError where
  path : String
  cause : FileError
deriving DecidableEq, Repr

/-- The texts shown to the user, the cause last. -/
def ManifestError.chain (e : ManifestError) : List String :=
  [s!"Failed to read manifest {e.path}", e.cause.message]

namespace CacheKey

/-- Stands for the digest of a manifest that does not exist. -/
def missingDigest : String := "0000000000000000"

def ofBytes (space : String) (contents : Bytes) : CacheKey := ⟨space, Digest.sha256 contents⟩

/-- The key of a manifest file. A missing file has a key too, any other failure is an error. -/
def ofManifest (files : FileSystem) (space path : String) : Except ManifestError CacheKey :=
  match files.read path with
  | .ok contents => .ok (ofBytes space contents)
  | .error .missing => .ok ⟨space, missingDigest⟩
  | .error cause => .error ⟨path, cause⟩

/-- The text with which every key of a namespace starts. -/
def stem (key : CacheKey) : String := key.space ++ "-"

/-- The text under which the cache is stored. -/
def render (key : CacheKey) : String := key.space ++ "-" ++ key.digest

end CacheKey

end BuildMatrix

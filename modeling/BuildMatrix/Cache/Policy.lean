import BuildMatrix.Cache.Key
import BuildMatrix.Matrix.Plan

/-!
# Cache policies

A policy says where the dependency caches of a workflow lie, from which manifest their key is
derived, and which other stored caches may stand in for it.
-/

namespace BuildMatrix

/-- Where dependency caches lie and how they are named. -/
structure CachePolicy where
  /-- The manifest, relative to the package root. -/
  manifest : String
  /-- The directory that holds one cache directory for each plan. -/
  path : String
  literal : String
  /-- The starts of keys that may stand in, the preferred first; none means the namespace. -/
  restoreKeys : List String
deriving DecidableEq, Repr

namespace CachePolicy

/-- The host system as it is named in keys. -/
def host : String := "Linux"

def space (policy : CachePolicy) : String := host ++ "-" ++ policy.literal

def manifestIn (policy : CachePolicy) (root : String) : String := Path.join root policy.manifest

def keyFor (policy : CachePolicy) (files : FileSystem) (root : String) :
    Except ManifestError CacheKey :=
  CacheKey.ofManifest files policy.space (policy.manifestIn root)

/-- The starts of keys that may stand in for a key. -/
def stemsFor (policy : CachePolicy) (key : CacheKey) : List String :=
  if policy.restoreKeys.isEmpty then [key.stem] else policy.restoreKeys

def directoryFor (policy : CachePolicy) (plan : Plan) : String := Path.join policy.path plan.slug

end CachePolicy

end BuildMatrix

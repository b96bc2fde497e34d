import NamespaceMigration.Cache.Metadata
import NamespaceMigration.Files.Tree

namespace NamespaceMigration.CacheLayout

def lockName : String := ".lock"

def temporaryMark : String := ".tmp."

/-- A name that is not UTF-8 is none of a temporary file, whatever its octets are. -/
def isTemporary (name : RawText) : Bool :=
  name.text?.any fun name => Text.contains temporaryMark.toList name.toList

def shardPlace (root : Place) (h : CacheKey) : Place := root ++ [.ofText h.shard]

def objectPlace (root : Place) (h : CacheKey) : Place := root ++ [.ofText h.shard, .ofText h.objectName]

def relativePath (h : CacheKey) : String := h.shard ++ "/" ++ h.objectName

def metadataPlace (root : Place) : Place := root ++ [.ofText Metadata.fileName]

def lockPlace (root : Place) : Place := root ++ [.ofText lockName]

def temporaryName (stem : String) (owner n : Nat) : String :=
  stem ++ temporaryMark ++ toString owner ++ "." ++ toString n

def hashOf? (shard name : RawText) : Option CacheKey := do
  let name ← name.text?
  let stem ← Text.strip? ".jar".toList.reverse name.toList.reverse
  let h ← CacheKey.parse? (String.ofList stem.reverse)
  if .ofText h.shard = shard then some h else none

def objectsIn (t : FileTree) (root : Place) (shard : RawText) : List CacheKey :=
  if shard.octets.length = 2 && t.isDirectory (root ++ [shard]) then
    (t.names (root ++ [shard])).filterMap fun name =>
      if t.isFile (root ++ [shard, name]) then hashOf? shard name else none
  else []

def objects (t : FileTree) (root : Place) : Except IoFault (List CacheKey) :=
  match t.list root with
  | .ok shards => .ok (shards.flatMap (objectsIn t root))
  | .error .notFound => .ok []
  | .error fault => .error fault

end NamespaceMigration.CacheLayout

import EvoclawPluginWechat.Core.Std

/-!
`digest_cache.rs`: the snapshot of the latest digest, reloaded when the mtime of
the meta file has changed. The file system is the two files of the `latest`
directory, each as `parse_json_file` reads it; JSON decoding is not modelled.
-/
namespace EvoclawPluginWechat

/-- `DIGEST_SCHEMA_VERSION`. -/
def digestSchemaVersion : Nat := 1

/-- `serde_json::Value`, for the flattened `extra` fields. -/
inductive JsonValue
  | null
  | bool (b : Bool)
  | posInt (n : Nat)
  | negInt (z : Int)
  | float (text : String)
  | string (s : String)
  | array (xs : List JsonValue)
  | object (fields : List (String × JsonValue))

structure DigestMeta where
  version : Nat
  generatedAt : String
  extra : List (String × JsonValue)

structure Event where
  id : String
  title : String
  description : String
  country : Option String
  city : Option String
  category : Option String
  dateStart : Option String
  dateEnd : Option String
  timeOfDay : Option String
  venue : Option String
  url : Option String
  imageUrl : Option String

structure DigestData where
  version : Nat
  events : List Event

structure DigestSnapshot where
  digestMeta : DigestMeta
  digestData : DigestData

structure DigestCfg where
  enabled : Bool
  maxAgeSecs : Nat

/-- The meta file: what `modified()` says of it, and its content when it can be
read and decoded. -/
structure MetaFile where
  mtime : Option Int
  parsed : Option DigestMeta

/-- The files at the paths `meta_file` and `data_file` of the `latest` directory. -/
structure DigestFiles where
  metaFile : Option MetaFile
  dataFile : Option DigestData

structure DigestCache where
  inner : Option DigestSnapshot
  lastMtime : Option Int

namespace DigestCache

def new : DigestCache := ⟨none, none⟩

/-- `stat.modified()` of the meta file. -/
def stat (files : DigestFiles) : Option Int := files.metaFile.bind MetaFile.mtime

/-- The fast path: the snapshot in memory, if the mtime is that of the last load. -/
def cacheHit (c : DigestCache) (mtime : Int) : Option DigestSnapshot :=
  if c.lastMtime = some mtime then c.inner else none

def loadFromDisk (files : DigestFiles) : Option DigestSnapshot :=
  match files.metaFile.bind MetaFile.parsed, files.dataFile with
  | some digestMeta, some digestData => some ⟨digestMeta, digestData⟩
  | _, _ => none

/-- The staleness guard; an mtime in the future has no age and passes. -/
def stale (cfg : DigestCfg) (now mtime : Int) : Bool :=
  decide (mtime ≤ now) && decide ((now - mtime) / 1000000000 > cfg.maxAgeSecs)

/-- A loaded snapshot passes both version checks and the staleness guard. -/
def admits (cfg : DigestCfg) (now mtime : Int) (snap : DigestSnapshot) : Bool :=
  snap.digestMeta.version == digestSchemaVersion &&
    snap.digestData.version == digestSchemaVersion && !stale cfg now mtime

/-- `snapshot`, with its reading of the wall clock. -/
def snapshot (cfg : DigestCfg) (c : DigestCache) (files : DigestFiles) (now : Int) :
    Option DigestSnapshot × DigestCache :=
  if cfg.enabled then
    match stat files with
    | none => (none, c)
    | some mtime =>
        match c.cacheHit mtime with
        | some snap => (some snap, c)
        | none =>
            match loadFromDisk files with
            | none => (none, c)
            | some snap =>
                if admits cfg now mtime snap then (some snap, ⟨some snap, some mtime⟩)
                else (none, c)
  else (none, c)

end DigestCache

/-- The cache in time: the files change at will, the wall clock moves forward. -/
structure DigestRun where
  cache : DigestCache
  files : DigestFiles
  now : Int

namespace DigestRun

inductive Act
  | publish (files : DigestFiles)
  | tick (d : Nat)
  | snapshot

/-- What a call of `snapshot` returns, now. -/
def served (cfg : DigestCfg) (s : DigestRun) : Option DigestSnapshot :=
  (s.cache.snapshot cfg s.files s.now).1

def step (cfg : DigestCfg) (s : DigestRun) : Act → Option DigestRun
  | .publish files => some { s with files }
  | .tick d => some { s with now := s.now + d }
  | .snapshot => some { s with cache := (s.cache.snapshot cfg s.files s.now).2 }

end DigestRun
end EvoclawPluginWechat

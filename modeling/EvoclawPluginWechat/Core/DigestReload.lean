import EvoclawPluginWechat.Core.DigestCache
import Mathlib.Logic.Function.Basic

/-!
Calls of `DigestCache::snapshot` side by side. One step is one access to the file system
or one section under a lock; between two of them other calls run and `latest` is switched
to another digest. A digest is a directory that is complete before `latest` points at it;
whatever a call reads it reads through `latest` as it stands at that moment.
-/
namespace EvoclawPluginWechat

abbrev DigestId := Nat
abbrev CallId := Nat

inductive SnapshotCall
  | started
  /-- With the `mtime` of its `stat`, from here on. -/
  | statted (mtime : Int)
  /-- Past the test of `last_mtime`, on its way to the files. -/
  | missed (mtime : Int)
  | metaRead (mtime : Int) (digestMeta : DigestMeta) (source : DigestId)
  | loaded (mtime : Int) (snap : DigestSnapshot)
  /-- Past both version checks and the staleness guard. -/
  | admitted (mtime : Int) (snap : DigestSnapshot)
  /-- `last_mtime` is stored, `inner` is not. -/
  | storing (mtime : Int) (snap : DigestSnapshot)
  | returned (result : Option DigestSnapshot)

def SnapshotCall.mtime : SnapshotCall → Option Int
  | .started | .returned _ => none
  | .statted mtime | .missed mtime | .metaRead mtime _ _ | .loaded mtime _
  | .admitted mtime _ | .storing mtime _ => some mtime

structure DigestReload where
  cache : DigestCache
  /-- The `mtime` of the call that stored `inner`. -/
  loadedFor : Option Int
  latest : Option DigestId
  /-- What `latest` has pointed at so far. -/
  published : List DigestId
  now : Int
  calls : CallId → Option SnapshotCall

namespace DigestReload

inductive Act
  | publish (d : DigestId)
  | tick (d : Nat)
  | call (c : CallId)
  | stat (c : CallId)
  | testCache (c : CallId)
  | readMeta (c : CallId)
  | readData (c : CallId)
  | check (c : CallId)
  | storeMtime (c : CallId)
  | storeInner (c : CallId)

def new (now : Int) : DigestReload := ⟨.new, none, none, [], now, fun _ => none⟩

def setCall (s : DigestReload) (c : CallId) (call : SnapshotCall) : DigestReload :=
  { s with calls := Function.update s.calls c (some call) }

/-- The files behind `latest`. -/
def files (digests : DigestId → DigestFiles) (s : DigestReload) : DigestFiles :=
  match s.latest with
  | some d => digests d
  | none => ⟨none, none⟩

def step (cfg : DigestCfg) (digests : DigestId → DigestFiles) (s : DigestReload) :
    Act → Option DigestReload
  | .publish d => some { s with latest := some d, published := d :: s.published }
  | .tick d => some { s with now := s.now + d }
  | .call c =>
      match s.calls c with
      | none => some (s.setCall c (if cfg.enabled then .started else .returned none))
      | some _ => none
  | .stat c =>
      match s.calls c with
      | some .started =>
          match DigestCache.stat (s.files digests) with
          | some mtime => some (s.setCall c (.statted mtime))
          | none => some (s.setCall c (.returned none))
      | _ => none
  -- under the lock of `last_mtime` and, on a hit, the read lock of `inner`
  | .testCache c =>
      match s.calls c with
      | some (.statted mtime) =>
          match s.cache.cacheHit mtime with
          | some snap => some (s.setCall c (.returned (some snap)))
          | none => some (s.setCall c (.missed mtime))
      | _ => none
  | .readMeta c =>
      match s.calls c with
      | some (.missed mtime) =>
          match s.latest, (s.files digests).metaFile.bind MetaFile.parsed with
          | some d, some digestMeta => some (s.setCall c (.metaRead mtime digestMeta d))
          | _, _ => some (s.setCall c (.returned none))
      | _ => none
  | .readData c =>
      match s.calls c with
      | some (.metaRead mtime digestMeta _) =>
          match (s.files digests).dataFile with
          | some digestData => some (s.setCall c (.loaded mtime ⟨digestMeta, digestData⟩))
          | none => some (s.setCall c (.returned none))
      | _ => none
  | .check c =>
      match s.calls c with
      | some (.loaded mtime snap) =>
          if DigestCache.admits cfg s.now mtime snap then
            some (s.setCall c (.admitted mtime snap))
          else some (s.setCall c (.returned none))
      | _ => none
  | .storeMtime c =>
      match s.calls c with
      | some (.admitted mtime snap) =>
          some { s.setCall c (.storing mtime snap) with cache.lastMtime := some mtime }
      | _ => none
  | .storeInner c =>
      match s.calls c with
      | some (.storing mtime snap) =>
          some { s.setCall c (.returned (some snap)) with
            cache.inner := some snap
            loadedFor := some mtime }
      | _ => none

end DigestReload
end EvoclawPluginWechat

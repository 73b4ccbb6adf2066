import TiProxy.Model.Metrics.Sample

/-! # Reader owners and the backends each owner scrapes

Every reader campaigns for the key of its zone, or for the global key when no zone is set.
`queryAllOwners` reads all owner keys with one prefix query, classifies each key as global or
zonal, and keeps the entry with the least create revision per zone. An owner scrapes the
backends outside the zones of the other zonal owners (`readFromBackends` with `excludeZones`),
so that a zone with its own owner is scraped by that owner only.
-/

namespace TiProxy.Metrics

/-- `readerOwnerKeyPrefix`. -/
def readerOwnerKeyPrefix : String := "/tiproxy/metric_reader"

/-- `readerOwnerKeySuffix`. -/
def readerOwnerKeySuffix : String := "owner"

/-- The key `initElection` campaigns for: the zone's key when the reader has a zone, the global
key otherwise. -/
def electionKey (lastZone : String) : String :=
  if lastZone.length > 0 then readerOwnerKeyPrefix ++ "/" ++ lastZone ++ "/" ++ readerOwnerKeySuffix
  else readerOwnerKeyPrefix ++ "/" ++ readerOwnerKeySuffix

/-- Modelled from the spec: the election, declared outside src/, creates `key/leaseID` for each
campaign on `key`. -/
def ownerKey (lastZone leaseID : String) : String :=
  electionKey lastZone ++ "/" ++ leaseID

/-- `mvccpb.KeyValue`: an etcd entry. -/
structure KeyValue where
  key : String
  value : String
  createRevision : Int
deriving DecidableEq, Repr

/-- `ownerInfo` in `queryAllOwners`. -/
structure OwnerInfo where
  addr : String
  revision : Int
deriving DecidableEq, Repr

/-- The zone an owner key names, `""` for the global owner, or `none` for a key the loop skips.
The prefix query returns only keys that start with the prefix, so dropping its characters is
`key[len(readerOwnerKeyPrefix):]`; the later cuts are at the ASCII `/`. -/
def ownerZone (key : String) : Option String :=
  match key.toList.drop readerOwnerKeyPrefix.length with
  | '/' :: key =>
    -- global owner key, such as "/tiproxy/metric_reader/owner/leaseID"
    if readerOwnerKeySuffix.toList.isPrefixOf key then some ""
    -- zonal owner key, such as "/tiproxy/metric_reader/east/owner/leaseID"
    else match key.span (· != '/') with
      | (zone@(_ :: _), '/' :: rest) =>
        if readerOwnerKeySuffix.toList.isPrefixOf rest then some (String.mk zone) else none
      | _ => none
  | _ => none

/-- One iteration of the first loop of `queryAllOwners`: keep the least create revision. -/
def recordOwner (ownerMap : StrMap OwnerInfo) (kv : KeyValue) : StrMap OwnerInfo :=
  match ownerZone kv.key with
  | none => ownerMap
  | some zone =>
    match ownerMap.lookup zone with
    | some info =>
      if info.revision > kv.createRevision then ownerMap.insert zone ⟨kv.value, kv.createRevision⟩
      else ownerMap
    | none => ownerMap.insert zone ⟨kv.value, kv.createRevision⟩

/-- `queryAllOwners` on the entries the prefix query returned: the zones that have an owner and
the distinct owner addresses, global owner included. -/
def queryAllOwners (kvs : List KeyValue) : List String × List String :=
  let ownerMap := kvs.foldl recordOwner ∅
  ownerMap.entries.foldl (fun (zones, owners) entry =>
    (if entry.1.length > 0 && !zones.contains entry.1 then zones ++ [entry.1] else zones,
      if !owners.contains entry.2.addr then owners ++ [entry.2.addr] else owners)) ([], [])

/-- Modelled from the spec: `config.LocationLabelName`, declared outside src/; the spec calls it
the zone label. -/
def locationLabelName : String := "zone"

/-- A backend of `GetTiDBTopology`, with the fields `getBackendAddrs` reads. -/
structure BackendInfo where
  ip : String
  statusPort : Nat
  labels : List (String × String)
deriving DecidableEq, Repr

/-- `backend.Labels[config.LocationLabelName]`, the empty string when the label is missing. -/
def BackendInfo.zone (backend : BackendInfo) : String :=
  (backend.labels.lookup locationLabelName).getD ""

/-- `net.JoinHostPort`. -/
def joinHostPort (host port : String) : String :=
  if host.contains ':' then "[" ++ host ++ "]:" ++ port else host ++ ":" ++ port

/-- The status address of a backend, `net.JoinHostPort(backend.IP, strconv.Itoa(StatusPort))`. -/
def BackendInfo.addr (backend : BackendInfo) : String :=
  joinHostPort backend.ip (toString backend.statusPort)

end TiProxy.Metrics

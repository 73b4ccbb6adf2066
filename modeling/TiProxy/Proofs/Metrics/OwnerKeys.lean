import TiProxy.Model.Metrics.Owners
import Mathlib.Data.List.Nodup

/-! # Owner keys are read back as the zones that wrote them

`initElection` writes `/tiproxy/metric_reader/<zone>/owner/<lease>` for a reader with a zone and
`/tiproxy/metric_reader/owner/<lease>` for one without. `queryAllOwners` takes a key as global when
the text after the prefix and its `/` starts with `owner`, and otherwise as the zone up to the
next `/` when `owner` follows it. Both checks agree with the writer exactly for zone names with no
`/` that do not themselves start with `owner`: the key of a zone named `owner-east`, say, passes
the global check first. For such names, `queryAllOwners` reports every zone that has a key, and
the owner of each group is the entry with the least create revision.
-/

namespace TiProxy.Metrics

/-- A zone name `queryAllOwners` reads back from its key: no `/`, and no `owner` at its start,
where the global key has it. -/
def ZoneName (zone : String) : Prop :=
  '/' ∉ zone.toList ∧ ¬readerOwnerKeySuffix.toList <+: zone.toList

instance : DecidablePred ZoneName := fun _ => inferInstanceAs (Decidable (_ ∧ _))

/-- A text with no `/` is a prefix of a word followed by a `/` only as a prefix of the word. -/
theorem prefix_append_slash_iff {text : List Char} (noSlash : '/' ∉ text) (word rest : List Char) :
    text <+: word ++ '/' :: rest ↔ text <+: word := by
  constructor
  · intro isPrefix
    by_cases short : text.length ≤ word.length
    · exact List.prefix_of_prefix_length_le isPrefix (List.prefix_append _ _) short
    · have long : word ++ ['/'] <+: text :=
        List.prefix_of_prefix_length_le ⟨rest, by simp⟩ isPrefix (by simp; omega)
      exact absurd (long.subset (by simp)) noSlash
  · exact fun isPrefix => isPrefix.trans (List.prefix_append _ _)

theorem readerOwnerKeySuffix_no_slash : '/' ∉ readerOwnerKeySuffix.toList := by decide

theorem toList_mk (chars : List Char) : (String.mk chars).toList = chars := rfl

/-- `queryAllOwners` reads the text of a key after the prefix. -/
theorem toList_drop_prefix (rest : String) :
    (readerOwnerKeyPrefix ++ rest).toList.drop readerOwnerKeyPrefix.length = rest.toList :=
  List.drop_left _ _

/-- The global key of every campaign is read as global. -/
theorem ownerZone_global (leaseID : String) : ownerZone (ownerKey "" leaseID) = some "" := by
  have key : ownerKey "" leaseID =
      readerOwnerKeyPrefix ++ ⟨'/' :: (readerOwnerKeySuffix.toList ++ '/' :: leaseID.toList)⟩ := by
    simp [ownerKey, electionKey, String.ext_iff, String.toList]
  rw [key, ownerZone, toList_drop_prefix, toList_mk]
  simp [List.prefix_append]

/-- The key of a zone with no `/` is read as that zone when the zone does not start with `owner`,
and as global when it does. -/
theorem ownerZone_zonal {zone : String} (noSlash : '/' ∉ zone.toList) (named : zone ≠ "")
    (leaseID : String) :
    ownerZone (ownerKey zone leaseID) =
      if readerOwnerKeySuffix.toList <+: zone.toList then some "" else some zone := by
  rcases zone with ⟨_ | ⟨first, word⟩⟩
  · exact absurd rfl named
  rw [toList_mk] at noSlash
  have key : ownerKey ⟨first :: word⟩ leaseID = readerOwnerKeyPrefix ++
      ⟨'/' :: ((first :: word) ++
        '/' :: (readerOwnerKeySuffix.toList ++ '/' :: leaseID.toList))⟩ := by
    simp [ownerKey, electionKey, String.ext_iff, String.toList, String.length]
  have cut : (first :: word ++ '/' :: (readerOwnerKeySuffix.toList ++ '/' :: leaseID.toList)).span
      (· != '/') =
        (first :: word, '/' :: (readerOwnerKeySuffix.toList ++ '/' :: leaseID.toList)) := by
    rw [List.span_eq_take_drop, List.takeWhile_append_of_pos, List.dropWhile_append_of_pos]
    · simp
    all_goals
      intro char member
      have : char ≠ '/' := fun same => noSlash (same ▸ member)
      simpa using this
  rw [key, ownerZone, toList_drop_prefix, toList_mk ('/' :: _), toList_mk (first :: word)]
  simp only [List.isPrefixOf_iff_prefix, prefix_append_slash_iff readerOwnerKeySuffix_no_slash,
    cut]
  split <;> simp [List.prefix_append]

/-- Every key a campaign creates is read back as its zone, the global key as `""`. -/
theorem ownerZone_ownerKey {zone : String} (named : ZoneName zone) (leaseID : String) :
    ownerZone (ownerKey zone leaseID) = some zone := by
  by_cases global : zone = ""
  · subst global
    exact ownerZone_global leaseID
  · rw [ownerZone_zonal named.1 global, if_neg named.2]

/-! ## The owner of each group -/

/-- The owner an etcd entry records. -/
def KeyValue.ownerInfo (kv : KeyValue) : OwnerInfo := ⟨kv.value, kv.createRevision⟩

/-- The first loop of `queryAllOwners` for one zone: the entry becomes the owner when there is none
yet or when its create revision is less. -/
def keepLeast (best : Option OwnerInfo) (kv : KeyValue) : Option OwnerInfo :=
  match best with
  | some info => if info.revision > kv.createRevision then some kv.ownerInfo else some info
  | none => some kv.ownerInfo

theorem lookup_recordOwner (ownerMap : StrMap OwnerInfo) (kv : KeyValue) (zone : String) :
    (recordOwner ownerMap kv).lookup zone =
      if ownerZone kv.key = some zone then keepLeast (ownerMap.lookup zone) kv
      else ownerMap.lookup zone := by
  unfold recordOwner
  cases classified : ownerZone kv.key with
  | none => simp
  | some keyZone =>
    by_cases same : keyZone = zone
    · subst same
      cases stored : ownerMap.lookup keyZone with
      | none => simp [keepLeast, stored, KeyValue.ownerInfo]
      | some info => by_cases later : info.revision > kv.createRevision <;>
          simp [keepLeast, stored, later, KeyValue.ownerInfo]
    · simp only [Option.some.injEq, same, if_false]
      split <;> (try split) <;> first | rfl | exact AList.lookup_insert_ne (Ne.symm same)

/-- For each zone, the first loop is `keepLeast` over the entries of the zone, in order. -/
theorem lookup_foldl_recordOwner (zone : String) :
    ∀ (kvs : List KeyValue) (ownerMap : StrMap OwnerInfo),
      (kvs.foldl recordOwner ownerMap).lookup zone =
        (kvs.filter fun kv => ownerZone kv.key = some zone).foldl keepLeast (ownerMap.lookup zone)
  | [], _ => rfl
  | kv :: rest, ownerMap => by
    rw [List.foldl_cons, lookup_foldl_recordOwner zone rest, lookup_recordOwner, List.filter_cons]
    by_cases classified : ownerZone kv.key = some zone <;> simp [classified]

/-- `best` is an owner of least create revision among `infos`, or there is none when `infos` is
empty. -/
def LeastOf : Option OwnerInfo → List OwnerInfo → Prop
  | none, infos => infos = []
  | some best, infos => best ∈ infos ∧ ∀ other ∈ infos, best.revision ≤ other.revision

theorem leastOf_keepLeast {best : Option OwnerInfo} {infos : List OwnerInfo}
    (least : LeastOf best infos) (kv : KeyValue) :
    LeastOf (keepLeast best kv) (infos ++ [kv.ownerInfo]) := by
  match best, least with
  | none, rfl => simp [keepLeast, LeastOf]
  | some info, ⟨member, least⟩ =>
    dsimp only [keepLeast]
    by_cases later : info.revision > kv.createRevision
    · rw [if_pos later]
      dsimp only [LeastOf]
      refine ⟨by simp, fun other mem => ?_⟩
      rcases List.mem_append.mp mem with old | new
      · exact (le_of_lt later).trans (least other old)
      · rw [List.mem_singleton.mp new]
    · rw [if_neg later]
      dsimp only [LeastOf]
      refine ⟨List.mem_append_left _ member, fun other mem => ?_⟩
      rcases List.mem_append.mp mem with old | new
      · exact least other old
      · rw [List.mem_singleton.mp new]
        exact le_of_not_lt later

theorem leastOf_foldl_keepLeast :
    ∀ (group : List KeyValue) {best : Option OwnerInfo} {infos : List OwnerInfo},
      LeastOf best infos →
        LeastOf (group.foldl keepLeast best) (infos ++ group.map KeyValue.ownerInfo)
  | [], _, infos, least => by rwa [List.map_nil, List.append_nil]
  | kv :: rest, _, infos, least => by
    rw [List.foldl_cons, List.map_cons, List.append_cons]
    exact leastOf_foldl_keepLeast rest (leastOf_keepLeast least kv)

/-- The first loop records, for each zone with an entry, an entry of the zone with the least
create revision, and nothing for a zone without one. -/
theorem leastOf_ownerMap (kvs : List KeyValue) (zone : String) :
    LeastOf ((kvs.foldl recordOwner ∅).lookup zone)
      ((kvs.filter fun kv => ownerZone kv.key = some zone).map KeyValue.ownerInfo) := by
  rw [lookup_foldl_recordOwner]
  exact leastOf_foldl_keepLeast _ (show LeastOf none [] from rfl)

/-! ## The reported zones and owners -/

section AppendNew

variable {α β : Type} [BEq β]

/-- The second loop of `queryAllOwners` for one of its lists: append `f x` when `keep x` holds
and the list does not contain it yet. -/
def appendNew (keep : α → Bool) (f : α → β) (acc : List β) (x : α) : List β :=
  if keep x && !acc.contains (f x) then acc ++ [f x] else acc

variable [LawfulBEq β] (keep : α → Bool) (f : α → β)

theorem mem_appendNew (acc : List β) (x : α) (y : β) :
    y ∈ appendNew keep f acc x ↔ y ∈ acc ∨ keep x = true ∧ f x = y := by
  unfold appendNew
  by_cases fresh : keep x = true ∧ f x ∉ acc
  · rw [if_pos (by simpa [List.contains, List.elem_eq_mem] using fresh), List.mem_append,
      List.mem_singleton, eq_comm]
    simp only [fresh.1, true_and]
  · rw [if_neg (by simpa [List.contains, List.elem_eq_mem] using fresh)]
    constructor
    · exact Or.inl
    · rintro (old | ⟨kept, rfl⟩)
      · exact old
      · by_contra absent
        exact fresh ⟨kept, absent⟩

theorem mem_foldl_appendNew (y : β) :
    ∀ (xs : List α) (acc : List β),
      y ∈ xs.foldl (appendNew keep f) acc ↔ y ∈ acc ∨ ∃ x ∈ xs, keep x ∧ f x = y
  | [], acc => by simp
  | x :: rest, acc => by
    rw [List.foldl_cons, mem_foldl_appendNew y rest, mem_appendNew]
    simp only [List.mem_cons, exists_eq_or_imp, or_assoc]

theorem nodup_foldl_appendNew :
    ∀ (xs : List α) {acc : List β}, acc.Nodup → (xs.foldl (appendNew keep f) acc).Nodup
  | [], _, distinct => distinct
  | x :: rest, acc, distinct => by
    rw [List.foldl_cons]
    apply nodup_foldl_appendNew rest
    unfold appendNew
    split
    · rename_i fresh
      simp only [Bool.and_eq_true, Bool.not_eq_true', List.contains, List.elem_eq_mem,
        decide_eq_false_iff_not] at fresh
      exact distinct.append (List.nodup_singleton _) (List.disjoint_singleton.mpr fresh.2)
    · exact distinct

end AppendNew

private theorem foldl_ownerEntries :
    ∀ (entries : List (Σ _ : String, OwnerInfo)) (zones owners : List String),
      entries.foldl (fun (zones, owners) entry =>
        (if entry.1.length > 0 && !zones.contains entry.1 then zones ++ [entry.1] else zones,
          if !owners.contains entry.2.addr then owners ++ [entry.2.addr] else owners))
        (zones, owners) =
      (entries.foldl (appendNew (fun entry => entry.1.length > 0) (·.1)) zones,
        entries.foldl (appendNew (fun _ => true) (·.2.addr)) owners)
  | [], _, _ => rfl
  | _ :: rest, _, _ => foldl_ownerEntries rest _ _

/-- `queryAllOwners` is two loops of `appendNew` over the recorded owners. -/
theorem queryAllOwners_eq (kvs : List KeyValue) :
    queryAllOwners kvs =
      ((kvs.foldl recordOwner ∅).entries.foldl (appendNew (fun entry => entry.1.length > 0)
          (·.1)) [],
        (kvs.foldl recordOwner ∅).entries.foldl (appendNew (fun _ => true) (·.2.addr)) []) :=
  foldl_ownerEntries _ [] []

/-- An entry of a map, found by its key. -/
theorem exists_entry_iff {V : Type} (map : StrMap V) (holds : String → V → Prop) :
    (∃ entry ∈ map.entries, holds entry.1 entry.2) ↔
      ∃ key value, map.lookup key = some value ∧ holds key value :=
  ⟨fun ⟨⟨key, value⟩, member, held⟩ => ⟨key, value, AList.mem_lookup_iff.mpr member, held⟩,
    fun ⟨key, value, found, held⟩ => ⟨⟨key, value⟩, AList.mem_lookup_iff.mp found, held⟩⟩

section Classified

/-! Entries whose keys `ownerZone` reads as the zone `zoneOf` gives them. -/

variable {kvs : List KeyValue} {zoneOf : KeyValue → String}
  (classified : ∀ kv ∈ kvs, ownerZone kv.key = some (zoneOf kv))
include classified

theorem mem_group (zone : String) (kv : KeyValue) :
    kv ∈ kvs.filter (fun kv => ownerZone kv.key = some zone) ↔ kv ∈ kvs ∧ zoneOf kv = zone := by
  rw [List.mem_filter, decide_eq_true_iff]
  exact ⟨fun ⟨member, read⟩ => ⟨member, Option.some.inj ((classified kv member).symm.trans read)⟩,
    fun ⟨member, same⟩ => ⟨member, same ▸ classified kv member⟩⟩

/-- A zone has an owner exactly when one of the entries has the zone. -/
theorem lookup_ownerMap_isSome (zone : String) :
    ((kvs.foldl recordOwner ∅).lookup zone).isSome ↔ ∃ kv ∈ kvs, zoneOf kv = zone := by
  have least := leastOf_ownerMap kvs zone
  cases found : (kvs.foldl recordOwner ∅).lookup zone with
  | none =>
    rw [found] at least
    simp only [Option.isSome_none, Bool.false_eq_true, false_iff, not_exists, not_and]
    intro kv member same
    have : kv.ownerInfo ∈ (kvs.filter fun kv => ownerZone kv.key = some zone).map
        KeyValue.ownerInfo :=
      List.mem_map_of_mem _ ((mem_group classified zone kv).mpr ⟨member, same⟩)
    exact List.not_mem_nil _ (least ▸ this)
  | some info =>
    rw [found] at least
    obtain ⟨kv, grouped, -⟩ := List.mem_map.mp least.1
    exact iff_of_true rfl ⟨kv, (mem_group classified zone kv).mp grouped⟩

/-- The owner recorded for a zone is an entry of the zone with the least create revision. -/
theorem least_of_lookup_ownerMap {zone : String} {info : OwnerInfo}
    (found : (kvs.foldl recordOwner ∅).lookup zone = some info) :
    ∃ kv ∈ kvs, zoneOf kv = zone ∧ kv.ownerInfo = info ∧
      ∀ other ∈ kvs, zoneOf other = zone → kv.createRevision ≤ other.createRevision := by
  have least := leastOf_ownerMap kvs zone
  rw [found] at least
  obtain ⟨kv, grouped, same⟩ := List.mem_map.mp least.1
  obtain ⟨member, zoned⟩ := (mem_group classified zone kv).mp grouped
  refine ⟨kv, member, zoned, same, fun other otherMember otherZoned => ?_⟩
  have := least.2 other.ownerInfo
    (List.mem_map_of_mem _ ((mem_group classified zone other).mpr ⟨otherMember, otherZoned⟩))
  rwa [← same] at this

/-- With distinct create revisions, an entry of least create revision in its zone is the owner
recorded for the zone. -/
theorem lookup_ownerMap_of_least (distinct : (kvs.map KeyValue.createRevision).Nodup)
    {kv : KeyValue} (member : kv ∈ kvs)
    (least : ∀ other ∈ kvs, zoneOf other = zoneOf kv → kv.createRevision ≤ other.createRevision) :
    (kvs.foldl recordOwner ∅).lookup (zoneOf kv) = some kv.ownerInfo := by
  obtain ⟨info, found⟩ := Option.isSome_iff_exists.mp
    ((lookup_ownerMap_isSome classified (zoneOf kv)).mpr ⟨kv, member, rfl⟩)
  obtain ⟨owner, ownerMember, zoned, rfl, ownerLeast⟩ := least_of_lookup_ownerMap classified found
  have same : owner = kv := List.inj_on_of_nodup_map distinct ownerMember member
    (le_antisymm (ownerLeast kv member rfl) (least owner ownerMember zoned))
  rw [found, same]

/-- For entries whose keys are read as their zones and whose create revisions are distinct,
`queryAllOwners` reports each non-empty zone of an entry once, and the address of the entry of
least create revision of each zone once, the global zone included. -/
theorem queryAllOwners_of_classified (distinct : (kvs.map KeyValue.createRevision).Nodup) :
    (∀ zone, zone ∈ (queryAllOwners kvs).1 ↔ zone ≠ "" ∧ ∃ kv ∈ kvs, zoneOf kv = zone) ∧
      (∀ addr, addr ∈ (queryAllOwners kvs).2 ↔ ∃ kv ∈ kvs, kv.value = addr ∧
        ∀ other ∈ kvs, zoneOf other = zoneOf kv → kv.createRevision ≤ other.createRevision) ∧
      (queryAllOwners kvs).1.Nodup ∧ (queryAllOwners kvs).2.Nodup := by
  rw [queryAllOwners_eq]
  refine ⟨fun zone => ?_, fun addr => ?_, nodup_foldl_appendNew _ _ _ List.nodup_nil,
    nodup_foldl_appendNew _ _ _ List.nodup_nil⟩
  · rw [mem_foldl_appendNew, exists_entry_iff _ fun key _ => decide (key.length > 0) = true ∧
      key = zone]
    simp only [List.not_mem_nil, false_or, decide_eq_true_eq]
    constructor
    · rintro ⟨key, _, found, named, rfl⟩
      exact ⟨fun empty => by simp [empty] at named,
        (lookup_ownerMap_isSome classified key).mp (by simp [found])⟩
    · rintro ⟨named, present⟩
      obtain ⟨info, found⟩ := Option.isSome_iff_exists.mp
        ((lookup_ownerMap_isSome classified zone).mpr present)
      exact ⟨zone, info, found, List.length_pos.mpr fun empty => named (String.ext empty), rfl⟩
  · rw [mem_foldl_appendNew,
      exists_entry_iff _ fun _ (info : OwnerInfo) => true = true ∧ info.addr = addr]
    simp only [List.not_mem_nil, false_or, true_and]
    constructor
    · rintro ⟨zone, info, found, rfl⟩
      obtain ⟨kv, member, rfl, rfl, least⟩ := least_of_lookup_ownerMap classified found
      exact ⟨kv, member, rfl, least⟩
    · rintro ⟨kv, member, rfl, least⟩
      exact ⟨zoneOf kv, kv.ownerInfo, lookup_ownerMap_of_least classified distinct member least,
        rfl⟩

end Classified

/-- For every set of campaign entries with distinct create revisions, each on the key
`initElection` and the election build for a zone name that has no `/` and does not start with
`owner`, or for the global key: `queryAllOwners` reports each non-empty zone of an entry once, and
the address of the entry of least create revision of each group once, the global group
included. -/
theorem queryAllOwners_of_campaigns (kvs : List KeyValue) (zoneOf : KeyValue → String)
    (built : ∀ kv ∈ kvs, ZoneName (zoneOf kv) ∧ ∃ leaseID, kv.key = ownerKey (zoneOf kv) leaseID)
    (distinct : (kvs.map KeyValue.createRevision).Nodup) :
    (∀ zone, zone ∈ (queryAllOwners kvs).1 ↔ zone ≠ "" ∧ ∃ kv ∈ kvs, zoneOf kv = zone) ∧
      (∀ addr, addr ∈ (queryAllOwners kvs).2 ↔ ∃ kv ∈ kvs, kv.value = addr ∧
        ∀ other ∈ kvs, zoneOf other = zoneOf kv → kv.createRevision ≤ other.createRevision) ∧
      (queryAllOwners kvs).1.Nodup ∧ (queryAllOwners kvs).2.Nodup :=
  queryAllOwners_of_classified (fun kv member => by
    obtain ⟨named, leaseID, key⟩ := built kv member
    rw [key, ownerZone_ownerKey named]) distinct

/-- Two campaigns in `east` and one for the global key. -/
def eastAndGlobal : List KeyValue :=
  [⟨ownerKey "east" "1", "10.0.0.5:3080", 5⟩, ⟨ownerKey "" "2", "10.0.0.6:3080", 7⟩,
    ⟨ownerKey "east" "3", "10.0.0.7:3080", 3⟩]

/-- The zone of each entry of `eastAndGlobal`. -/
def eastAndGlobalZone (kv : KeyValue) : String :=
  if kv.createRevision = 7 then "" else "east"

theorem queryAllOwners_of_campaigns_east_and_global :
    (∀ kv ∈ eastAndGlobal, ZoneName (eastAndGlobalZone kv) ∧
        ∃ leaseID, kv.key = ownerKey (eastAndGlobalZone kv) leaseID) ∧
      (eastAndGlobal.map KeyValue.createRevision).Nodup ∧
      (∀ zone, zone ∈ (queryAllOwners eastAndGlobal).1 ↔
        zone ≠ "" ∧ ∃ kv ∈ eastAndGlobal, eastAndGlobalZone kv = zone) ∧
      (∀ addr, addr ∈ (queryAllOwners eastAndGlobal).2 ↔ ∃ kv ∈ eastAndGlobal, kv.value = addr ∧
        ∀ other ∈ eastAndGlobal, eastAndGlobalZone other = eastAndGlobalZone kv →
          kv.createRevision ≤ other.createRevision) ∧
      (queryAllOwners eastAndGlobal).1.Nodup ∧ (queryAllOwners eastAndGlobal).2.Nodup :=
  have built : ∀ kv ∈ eastAndGlobal, ZoneName (eastAndGlobalZone kv) ∧
      ∃ leaseID, kv.key = ownerKey (eastAndGlobalZone kv) leaseID := by
    simp only [eastAndGlobal, List.forall_mem_cons, List.not_mem_nil, IsEmpty.forall_iff,
      implies_true, and_true]
    exact ⟨⟨by decide, "1", rfl⟩, ⟨by decide, "2", rfl⟩, ⟨by decide, "3", rfl⟩⟩
  have distinct : (eastAndGlobal.map KeyValue.createRevision).Nodup := by decide
  ⟨built, distinct, queryAllOwners_of_campaigns eastAndGlobal eastAndGlobalZone built distinct⟩

/-- A zone named `owner-east`, with no `/`: its key passes the global check, so `queryAllOwners`
reports no zone, and the zone's entry, whose create revision is less than that of the global
owner, is taken as the global owner in its place. -/
theorem owner_prefixed_zone_read_as_global :
    "owner-east" ≠ "" ∧ '/' ∉ "owner-east".toList ∧
      queryAllOwners [⟨ownerKey "owner-east" "1", "10.0.0.5:3080", 5⟩,
        ⟨ownerKey "" "2", "10.0.0.6:3080", 7⟩] = ([], ["10.0.0.5:3080"]) := by
  decide

end TiProxy.Metrics

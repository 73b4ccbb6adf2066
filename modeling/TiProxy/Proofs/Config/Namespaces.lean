import TiProxy.Model.Config.Manager

/-! # The key a namespace operation writes

`SetNamespace` and `DelNamespace` write the one entry `path.Clean(path.Join("ns", name))` and no
other. For a name with no `..` element and some element other than empty and `.`, that key is
`ns/` followed by the name's real elements joined with slashes, strictly under the prefix, and
after `SetNamespace` both `GetNamespace` and `ListAllNamespace` return the namespace. The check
of `SetNamespace` asks only for a non-empty name, though: `path.Clean` resolves a `..` element
against the prefix, so the name `../other` writes the key `other` outside the prefix, where it
overwrites whatever entry has that key and `ListAllNamespace` does not see it.

`list` ascends through the B-tree from the first key not below `path.Clean(ns)` and stops at the
first key without it as a prefix. It still returns every key with the prefix: Go orders strings
byte by byte, and the keys with a given prefix are a contiguous run in that order.
-/

namespace TiProxy.Config

/-! ## Elements of a cleaned path -/

/-- A path element other than an empty one and `.`. -/
def realElem (elem : List Char) : Bool := elem ≠ [] ∧ elem ≠ ['.']

/-- The real elements of a path. -/
def realElements (path : String) : List (List Char) := (pathElements path.toList).filter realElem

/-- A name with no `..` element and some real element. -/
def PlainName (ns : String) : Prop := ['.', '.'] ∉ pathElements ns.toList ∧ realElements ns ≠ []

instance : DecidablePred PlainName := fun _ => inferInstanceAs (Decidable (_ ∧ _))

/-- The key the namespace operations address for the name `ns`. -/
def namespaceKey (ns : String) : String := clean (join [pathPrefixNamespace, ns])

theorem slash_not_mem_of_mem_pathElements :
    ∀ {path : List Char} {elem : List Char}, elem ∈ pathElements path → '/' ∉ elem
  | [], elem, member => by
    rw [pathElements, List.splitOn_nil, List.mem_singleton] at member
    subst member
    exact List.not_mem_nil _
  | c :: rest, elem, member => by
    unfold pathElements List.splitOn at member
    rw [List.splitOnP_cons] at member
    have later : ∀ {elem}, elem ∈ rest.splitOnP (· == '/') → '/' ∉ elem :=
      fun member => slash_not_mem_of_mem_pathElements member
    split at member
    · rcases List.mem_cons.mp member with rfl | member
      · exact List.not_mem_nil _
      · exact later member
    · rename_i notSlash
      cases split : rest.splitOnP (· == '/') with
      | nil => exact absurd split (List.splitOnP_ne_nil _ _)
      | cons first others =>
        rw [split, List.modifyHead_cons] at member
        rcases List.mem_cons.mp member with rfl | member
        · rw [List.mem_cons, not_or]
          exact ⟨fun same => notSlash (by subst same; exact beq_self_eq_true _),
            later (split ▸ List.mem_cons_self _ _)⟩
        · exact later (split ▸ List.mem_cons_of_mem _ member)

/-- Over elements with no `..`, the pass of `path.Clean` keeps the real elements. -/
theorem foldl_cleanStep_of_no_dotdot (rooted : Bool) :
    ∀ (elems out : List (List Char)), ['.', '.'] ∉ elems →
      elems.foldl (cleanStep rooted) out = (elems.filter realElem).reverse ++ out
  | [], _, _ => rfl
  | elem :: rest, out, noDotdot => by
    have notDotdot : elem ≠ ['.', '.'] := fun same => noDotdot (same ▸ List.mem_cons_self _ _)
    rw [List.foldl_cons, foldl_cleanStep_of_no_dotdot rooted rest _
      (fun member => noDotdot (List.mem_cons_of_mem _ member)), List.filter_cons]
    unfold cleanStep realElem
    by_cases skipped : elem = [] ∨ elem = ['.']
    · rw [if_pos skipped]
      rcases skipped with rfl | rfl <;> rfl
    · rw [if_neg skipped, if_neg notDotdot, not_or] at *
      simp [skipped.1, skipped.2]

theorem intercalate_cons_of_ne_nil {elem : List Char} {elems : List (List Char)}
    (more : elems ≠ []) : ['/'].intercalate (elem :: elems) =
      elem ++ '/' :: ['/'].intercalate elems := by
  obtain ⟨next, rest, rfl⟩ := List.exists_cons_of_ne_nil more
  simp [List.intercalate, List.intersperse_cons₂]

/-- The real elements of a path, joined with slashes, are not empty when there is one. -/
theorem intercalate_realElements_ne_nil {path : String} (real : realElements path ≠ []) :
    ['/'].intercalate (realElements path) ≠ [] := by
  obtain ⟨first, rest, split⟩ := List.exists_cons_of_ne_nil real
  have firstNonempty : first ≠ [] := by
    have := List.of_mem_filter (split ▸ List.mem_cons_self first rest : first ∈ realElements path)
    simp only [realElem, ne_eq, Bool.decide_and, Bool.and_eq_true, decide_eq_true_eq] at this
    exact this.1
  rw [split]
  cases rest with
  | nil => simpa [List.intercalate] using firstNonempty
  | cons => simp [intercalate_cons_of_ne_nil]

/-- A relative path with no `..` element and some real element cleans to its real elements
joined with slashes. -/
theorem clean_of_relative {path : String} (relative : path.toList.head? ≠ some '/')
    (noDotdot : ['.', '.'] ∉ pathElements path.toList) (real : realElements path ≠ []) :
    (clean path).toList = ['/'].intercalate (realElements path) := by
  have nonempty : path ≠ "" := by
    rintro rfl
    exact real rfl
  unfold clean
  rw [if_neg nonempty]
  simp only [relative, decide_False, Bool.false_eq_true, if_false,
    foldl_cleanStep_of_no_dotdot false _ [] noDotdot, List.append_nil, List.reverse_reverse]
  rw [← realElements]
  split
  · exact absurd (congrArg String.toList ‹_›) (intercalate_realElements_ne_nil real)
  · rfl

theorem join_namespace {ns : String} (named : ns ≠ "") :
    join [pathPrefixNamespace, ns] = clean ⟨['n', 's', '/'] ++ ns.toList⟩ := by
  have notEmpty : (ns != "") = true := by simpa using named
  simp [join, pathPrefixNamespace, notEmpty]
  rfl

/-- The key of a plain name is `ns/` followed by the name's real elements joined with slashes:
`path.Join` cleans `ns/name` once, and `path.Clean` finds nothing more to do. -/
theorem namespaceKey_toList {ns : String} (plain : PlainName ns) :
    (namespaceKey ns).toList = ['/'].intercalate (['n', 's'] :: realElements ns) := by
  obtain ⟨noDotdot, real⟩ := plain
  have named : ns ≠ "" := by
    rintro rfl
    exact real rfl
  have prefixReal : realElem ['n', 's'] := by decide
  -- the path `path.Join` cleans
  have joinedElements : pathElements (String.mk (['n', 's', '/'] ++ ns.toList)).toList =
      ['n', 's'] :: pathElements ns.toList :=
    List.splitOnP_first (· == '/') ['n', 's'] (by decide) '/' rfl ns.toList
  have joined : (join [pathPrefixNamespace, ns]).toList =
      ['/'].intercalate (['n', 's'] :: realElements ns) := by
    rw [join_namespace named, clean_of_relative (by simp)]
    · rw [realElements, joinedElements, List.filter_cons_of_pos prefixReal]
      rfl
    · rw [joinedElements, List.mem_cons, not_or]
      exact ⟨by decide, noDotdot⟩
    · rw [realElements, joinedElements, List.filter_cons_of_pos prefixReal]
      exact List.cons_ne_nil _ _
  -- the elements of the joined path, all real
  have fromName : ∀ elem ∈ realElements ns, elem ∈ pathElements ns.toList :=
    fun _ member => List.mem_of_mem_filter member
  have noSlash : ∀ elem ∈ ['n', 's'] :: realElements ns, '/' ∉ elem := by
    intro elem member
    rcases List.mem_cons.mp member with rfl | member
    · decide
    · exact slash_not_mem_of_mem_pathElements (fromName elem member)
  have elements : pathElements (join [pathPrefixNamespace, ns]).toList =
      ['n', 's'] :: realElements ns := by
    rw [joined]
    exact List.splitOn_intercalate _ '/' noSlash (List.cons_ne_nil _ _)
  have allReal : (['n', 's'] :: realElements ns).filter realElem = ['n', 's'] :: realElements ns :=
    List.filter_eq_self.mpr fun elem member => by
      rcases List.mem_cons.mp member with rfl | member
      · exact prefixReal
      · exact List.of_mem_filter member
  rw [namespaceKey, clean_of_relative, realElements, elements, allReal]
  · rw [joined, intercalate_cons_of_ne_nil real]
    simp
  · rw [elements, List.mem_cons, not_or]
    exact ⟨by decide, fun member => noDotdot (fromName _ member)⟩
  · rw [realElements, elements, allReal]
    exact List.cons_ne_nil _ _

/-- The key of a plain name lies strictly under the namespace prefix. -/
theorem namespaceKey_under_prefix {ns : String} (plain : PlainName ns) :
    ∃ rest ≠ [], (namespaceKey ns).toList = (clean pathPrefixNamespace).toList ++ '/' :: rest :=
  ⟨['/'].intercalate (realElements ns), intercalate_realElements_ne_nil plain.2,
    by rw [namespaceKey_toList plain, intercalate_cons_of_ne_nil plain.2]; rfl⟩

/-! ## The order of the keys -/

namespace ConfigManager

/-- Two characters neither of which is below the other are equal. -/
theorem char_eq_of_not_lt {c d : Char} (le : ¬c.toNat < d.toNat) (ge : ¬d.toNat < c.toNat) :
    c = d := by
  rw [← Char.ofNat_toNat c, ← Char.ofNat_toNat d, Nat.le_antisymm (Nat.le_of_not_lt ge)
    (Nat.le_of_not_lt le)]

theorem keyLess_cons (c d : Char) (cs ds : List Char) :
    keyLess (c :: cs) (d :: ds) = true ↔ c.toNat < d.toNat ∨ c = d ∧ keyLess cs ds = true := by
  simp [keyLess]

theorem keyLess_asymm : ∀ {a b : List Char}, keyLess a b = true → keyLess b a = false
  | [], _ :: _, _ => rfl
  | c :: cs, d :: ds, less => by
    rw [Bool.eq_false_iff, ne_eq, keyLess_cons]
    rcases (keyLess_cons c d cs ds).mp less with lt | ⟨rfl, rest⟩
    · rintro (gt | ⟨rfl, -⟩) <;> omega
    · rintro (gt | ⟨-, back⟩)
      · omega
      · exact absurd back (by rw [keyLess_asymm rest]; decide)

/-- A key below another is below or above any third. -/
theorem keyLess_or : ∀ {a c : List Char} (b : List Char), keyLess c a = true →
    keyLess c b = true ∨ keyLess b a = true
  | [], [], _, less | [], _ :: _, _, less => by cases less
  | _ :: _, [], [], _ | _ :: _, [], _ :: _, _ => by simp [keyLess]
  | _ :: _, _ :: _, [], _ => .inr rfl
  | x :: as, z :: cs, y :: bs, less => by
    simp only [keyLess_cons] at less ⊢
    by_cases zy : z.toNat < y.toNat
    · exact .inl (.inl zy)
    by_cases yx : y.toNat < x.toNat
    · exact .inr (.inl yx)
    rcases less with zx | ⟨rfl, rest⟩
    · omega
    · obtain rfl := char_eq_of_not_lt zy yx
      exact (keyLess_or bs rest).imp (.inr ⟨rfl, ·⟩) (.inr ⟨rfl, ·⟩)

/-- A key with `k` as a prefix is not below `k`. -/
theorem keyLess_eq_false_of_prefixed : ∀ {k a : List Char}, k <+: a → keyLess a k = false
  | [], [], _ | [], _ :: _, _ => rfl
  | c :: ks, a, ⟨rest, split⟩ => by
    subst split
    rw [List.cons_append, Bool.eq_false_iff, ne_eq, keyLess_cons]
    rintro (lt | ⟨-, less⟩)
    · omega
    · exact absurd less (by rw [keyLess_eq_false_of_prefixed (List.prefix_append ks rest)]; decide)

/-- The keys with `k` as a prefix are a contiguous run: a key between `k` and such a key has `k`
as a prefix too. -/
theorem prefix_of_between : ∀ {k a b : List Char}, keyLess a k = false → keyLess b a = false →
    k <+: b → k <+: a
  | [], _, _, _, _, _ => List.nil_prefix
  | _ :: _, [], _, low, _, _ => by cases low
  | c :: ks, x :: as, b, low, high, ⟨rest, split⟩ => by
    subst split
    rw [List.cons_append] at high
    rw [Bool.eq_false_iff, ne_eq, keyLess_cons] at low high
    simp only [not_or, not_and] at low high
    obtain rfl := char_eq_of_not_lt low.1 high.1
    exact (List.prefix_cons_inj x).mpr (prefix_of_between (Bool.eq_false_iff.mpr (low.2 rfl))
      (Bool.eq_false_iff.mpr (high.2 rfl)) (List.prefix_append ks rest))

/-- Not being below is transitive. -/
theorem keyLess_eq_false_trans {a b c : List Char} (ab : keyLess b a = false)
    (bc : keyLess c b = false) : keyLess c a = false :=
  Bool.eq_false_iff.mpr fun less => by
    rcases keyLess_or b less with below | below
    · rw [bc] at below; cases below
    · rw [ab] at below; cases below

instance : IsTotal (Σ _ : String, Namespace) fun a b => keyLess b.1.toList a.1.toList = false :=
  ⟨fun a b => by
    cases less : keyLess b.1.toList a.1.toList
    · exact .inl rfl
    · exact .inr (keyLess_asymm less)⟩

instance : IsTrans (Σ _ : String, Namespace) fun a b => keyLess b.1.toList a.1.toList = false :=
  ⟨fun _ _ _ ab bc => keyLess_eq_false_trans ab bc⟩

section Scan

variable {k : List Char}

/-- In ascending key order, no key after the ones below `k` is below `k`. -/
theorem dropWhile_not_below : ∀ {l : List (Σ _ : String, Namespace)},
    l.Sorted (fun a b => keyLess b.1.toList a.1.toList = false) →
    ∀ item ∈ l.dropWhile (fun item => keyLess item.1.toList k), keyLess item.1.toList k = false
  | [], _, _, member => nomatch member
  | x :: rest, sorted, item, member => by
    by_cases below : keyLess x.1.toList k = true
    · simp only [List.dropWhile_cons, below, if_true] at member
      exact dropWhile_not_below sorted.of_cons item member
    · simp only [List.dropWhile_cons, below, if_false] at member
      rcases List.mem_cons.mp member with rfl | later
      · exact Bool.eq_false_iff.mpr below
      · exact keyLess_eq_false_trans (Bool.eq_false_iff.mpr below)
          (List.rel_of_sorted_cons sorted item later)

/-- A key with `k` as a prefix is not among the keys below `k`. -/
theorem mem_dropWhile_of_prefixed {item : Σ _ : String, Namespace} (pre : k <+: item.1.toList) :
    ∀ {l : List (Σ _ : String, Namespace)}, item ∈ l →
      item ∈ l.dropWhile (fun x => keyLess x.1.toList k)
  | x :: rest, member => by
    by_cases below : keyLess x.1.toList k = true
    · simp only [List.dropWhile_cons, below, if_true]
      rcases List.mem_cons.mp member with rfl | later
      · rw [keyLess_eq_false_of_prefixed pre] at below
        cases below
      · exact mem_dropWhile_of_prefixed pre later
    · simp only [List.dropWhile_cons, below, if_false]
      exact member

/-- In ascending key order, from the first key not below `k`, the keys with `k` as a prefix come
before every other key. -/
theorem mem_takeWhile_of_prefixed {item : Σ _ : String, Namespace} (pre : k <+: item.1.toList) :
    ∀ {l : List (Σ _ : String, Namespace)},
      l.Sorted (fun a b => keyLess b.1.toList a.1.toList = false) →
      (∀ y ∈ l, keyLess y.1.toList k = false) → item ∈ l →
      item ∈ l.takeWhile (fun x => k.isPrefixOf x.1.toList)
  | x :: rest, sorted, low, member => by
    by_cases prefixed : k.isPrefixOf x.1.toList = true
    · simp only [List.takeWhile_cons, prefixed, if_true]
      rcases List.mem_cons.mp member with rfl | later
      · exact List.mem_cons_self _ _
      · exact List.mem_cons_of_mem _ (mem_takeWhile_of_prefixed pre sorted.of_cons
          (fun y member => low y (.tail _ member)) later)
    · refine absurd (List.isPrefixOf_iff_prefix.mpr ?_) prefixed
      rcases List.mem_cons.mp member with rfl | later
      · exact pre
      · exact prefix_of_between (low x (.head _)) (List.rel_of_sorted_cons sorted item later) pre

end Scan

/-- `list` returns exactly the entries whose keys have `path.Clean(ns)` as a prefix. -/
theorem mem_list {e : ConfigManager} {ns : String} {item : Σ _ : String, Namespace} :
    item ∈ e.list ns ↔ item ∈ e.kv.entries ∧ (clean ns).toList <+: item.1.toList := by
  have sorted := List.sorted_insertionSort
    (fun a b : Σ _ : String, Namespace => keyLess b.1.toList a.1.toList = false) e.kv.entries
  constructor
  · intro member
    exact ⟨(List.perm_insertionSort _ _).subset ((List.dropWhile_sublist _).subset
        ((List.takeWhile_sublist _).subset member)),
      List.isPrefixOf_iff_prefix.mp (List.mem_takeWhile_imp
        (p := fun item : Σ _ : String, Namespace => (clean ns).toList.isPrefixOf item.1.toList)
        member)⟩
  · rintro ⟨member, pre⟩
    exact mem_takeWhile_of_prefixed pre (sorted.sublist (List.dropWhile_sublist _))
      (dropWhile_not_below sorted)
      (mem_dropWhile_of_prefixed pre ((List.perm_insertionSort _ _).mem_iff.mpr member))

/-! ## The namespace operations -/

theorem lookup_set (e : ConfigManager) (ns key : String) (val : Namespace) (other : String) :
    (e.set ns key val).kv.lookup other =
      if other = clean (join [ns, key]) then some val else e.kv.lookup other := by
  unfold set
  split
  · subst ‹other = _›
    exact AList.lookup_insert _
  · exact AList.lookup_insert_ne ‹_›

theorem lookup_del (e : ConfigManager) (ns key : String) (other : String) :
    (e.del ns key).kv.lookup other =
      if other = clean (join [ns, key]) then none else e.kv.lookup other := by
  unfold del
  split
  · subst ‹other = _›
    exact AList.lookup_erase _ _
  · exact AList.lookup_erase_ne ‹_›

/-- For every store and every plain name: `SetNamespace` with a named namespace succeeds and
writes only the name's key, which lies strictly under the prefix `ns/`; after it, `GetNamespace`
returns the namespace and `ListAllNamespace` contains it. `DelNamespace` removes the name's key
and no other. -/
theorem namespace_ops_of_plainName (e : ConfigManager) {ns : String} (plain : PlainName ns)
    {nsc : Namespace} (named : nsc.name ≠ "") :
    (∃ stored, e.setNamespace ns nsc = .ok stored ∧
      (∀ key, key ≠ namespaceKey ns → stored.kv.lookup key = e.kv.lookup key) ∧
      stored.getNamespace ns = .ok nsc ∧ nsc ∈ stored.listAllNamespace) ∧
    (∃ rest ≠ [], (namespaceKey ns).toList = (clean pathPrefixNamespace).toList ++ '/' :: rest) ∧
    (e.delNamespace ns).kv.lookup (namespaceKey ns) = none ∧
      ∀ key, key ≠ namespaceKey ns → (e.delNamespace ns).kv.lookup key = e.kv.lookup key := by
  have nonempty : ns ≠ "" := by
    rintro rfl
    exact plain.2 rfl
  obtain ⟨rest, -, under⟩ := namespaceKey_under_prefix plain
  have stored : ∀ key, (e.set pathPrefixNamespace ns nsc).kv.lookup key =
      if key = namespaceKey ns then some nsc else e.kv.lookup key :=
    lookup_set e pathPrefixNamespace ns nsc
  refine ⟨⟨_, if_neg (not_or.mpr ⟨nonempty, named⟩), fun key other => ?_, ?_, ?_⟩,
    namespaceKey_under_prefix plain, ?_, fun key other => ?_⟩
  · rw [stored, if_neg other]
  · dsimp only [getNamespace, get]
    rw [show clean (join [pathPrefixNamespace, ns]) = namespaceKey ns from rfl, stored, if_pos rfl]
  · have found : (e.set pathPrefixNamespace ns nsc).kv.lookup (namespaceKey ns) = some nsc := by
      rw [stored, if_pos rfl]
    refine List.mem_map.mpr ⟨⟨namespaceKey ns, nsc⟩, mem_list.mpr
      ⟨AList.mem_lookup_iff.mp found, ?_⟩, rfl⟩
    rw [under]
    exact List.prefix_append _ _
  · exact (lookup_del e pathPrefixNamespace ns _).trans (if_pos rfl)
  · exact (lookup_del e pathPrefixNamespace ns key).trans (if_neg other)

/-- A namespace `team` stored under the name `team/a`. -/
def teamNamespace : Namespace := ⟨"team", ""⟩

theorem namespace_ops_of_plainName_team :
    PlainName "team/a" ∧ teamNamespace.name ≠ "" ∧
    (∃ stored, ({} : ConfigManager).setNamespace "team/a" teamNamespace = .ok stored ∧
      (∀ key, key ≠ namespaceKey "team/a" →
        stored.kv.lookup key = ({} : ConfigManager).kv.lookup key) ∧
      stored.getNamespace "team/a" = .ok teamNamespace ∧ teamNamespace ∈ stored.listAllNamespace) ∧
    (∃ rest ≠ [], (namespaceKey "team/a").toList =
      (clean pathPrefixNamespace).toList ++ '/' :: rest) ∧
    (({} : ConfigManager).delNamespace "team/a").kv.lookup (namespaceKey "team/a") = none ∧
      ∀ key, key ≠ namespaceKey "team/a" →
        (({} : ConfigManager).delNamespace "team/a").kv.lookup key =
          ({} : ConfigManager).kv.lookup key :=
  have plain : PlainName "team/a" := by decide
  have named : teamNamespace.name ≠ "" := by decide
  ⟨plain, named, namespace_ops_of_plainName {} plain named⟩

/-- A store with one entry, `other`, outside the namespaces. -/
def otherStore : ConfigManager :=
  { kv := (∅ : Metrics.StrMap Namespace).insert "other" ⟨"kept", ""⟩ }

/-- `SetNamespace` accepts the name `../other`, whose key is `other`, outside the prefix: it
overwrites the entry `other`, and `ListAllNamespace` does not list what it wrote;
`DelNamespace("../other")` deletes that entry. The name `/` addresses the prefix `ns` itself. -/
theorem setNamespace_dotdot_escapes_prefix :
    namespaceKey "../other" = "other" ∧
      (otherStore.setNamespace "../other" ⟨"evil", ""⟩).toOption.map
        (fun stored => (stored.kv.lookup "other", stored.listAllNamespace)) =
        some (some ⟨"evil", ""⟩, []) ∧
      (otherStore.delNamespace "../other").kv.lookup "other" = none ∧
      namespaceKey "/" = "ns" := by
  decide

end ConfigManager

end TiProxy.Config

import TiProxy.Model.Metrics.Sample
import Mathlib.Data.List.Sort

/-! # The namespace store of the config manager

`ConfigManager` keeps its entries in a B-tree ordered by key. `set`, `del` and `get` address the
entry `path.Clean(path.Join(ns, key))`; `list` ascends through the entries from the first key at
or after `path.Clean(ns)`, while their keys have it as a prefix. The namespace operations use these
with the prefix `pathPrefixNamespace` and the namespace's name as the key, so the name is a path
relative to the prefix, and `path.Clean` resolves its `.` and `..` elements.

`path.Clean` and `path.Join` are modelled over the path's characters from the rules Go documents
for them: a path is split into the elements between its slashes; empty and `.` elements are
dropped; a `..` element removes the real element before it, is dropped at the start of a rooted
path, and is kept at the start of an unrooted one. A Go string is compared and cut by bytes, and
for valid UTF-8 texts this agrees with comparing and cutting characters.
-/

namespace TiProxy.Config

/-- Modelled from the config manager's package, declared outside src/: the prefix of the
namespace keys. -/
def pathPrefixNamespace : String := "ns"

/-- The elements of a path between its slashes. -/
def pathElements (path : List Char) : List (List Char) := path.splitOn '/'

/-- One element of `path.Clean`'s pass over a path: `out` holds the elements kept so far, last
first; a `..` with no real element before it to remove stays when the path is unrooted. -/
def cleanStep (rooted : Bool) (out : List (List Char)) (elem : List Char) : List (List Char) :=
  if elem = [] ∨ elem = ['.'] then out
  else if elem = ['.', '.'] then
    match out with
    | last :: rest => if last = ['.', '.'] then elem :: out else rest
    | [] => if rooted then [] else [elem]
  else elem :: out

/-- `path.Clean`: the shortest path equivalent to `path` by lexical processing alone, `.` for an
empty result. -/
def clean (path : String) : String :=
  if path = "" then "." else
  let rooted := path.toList.head? = some '/'
  let out := ((pathElements path.toList).foldl (cleanStep rooted) []).reverse
  let body : String := ⟨['/'].intercalate out⟩
  if rooted then "/" ++ body else if body = "" then "." else body

/-- `path.Join`: the non-empty elements joined with slashes, then cleaned; `""` when every
element is empty. -/
def join (elem : List String) : String :=
  if elem.foldl (fun size e => size + e.length) 0 = 0 then "" else
  clean (elem.foldl (fun buf e =>
    if buf.length > 0 || e ≠ "" then (if buf.length > 0 then buf ++ "/" else buf) ++ e
    else buf) "")

/-- `config.Namespace`, declared outside src/. The manager reads its
name, the field `Namespace`; its frontend and backend settings, which it only stores, are kept as
their JSON text. -/
structure Namespace where
  name : String
  settings : String
deriving DecidableEq, Repr

/-- The entries of `e.kv`. A namespace is stored as the JSON text `json.Marshal` makes of it, and
`json.Unmarshal` reads it back; the model keeps the decoded value. -/
structure ConfigManager where
  kv : Metrics.StrMap Namespace := ∅

namespace ConfigManager

/-- `get`: the entry `path.Clean(path.Join(ns, key))`, or `ErrNoResults` with that key. -/
def get (e : ConfigManager) (ns key : String) : Except String Namespace :=
  let nkey := clean (join [ns, key])
  match e.kv.lookup nkey with
  | some v => .ok v
  | none => .error ("key=" ++ nkey)

/-- Go's `<` on the keys of the B-tree: the first differing byte decides, and a proper prefix is
smaller. On valid UTF-8 texts the bytes compare as the characters' code points do. -/
def keyLess : List Char → List Char → Bool
  | [], _ :: _ => true
  | c :: cs, d :: ds => c.toNat < d.toNat || (c = d && keyLess cs ds)
  | _, [] => false

/-- The entries of the B-tree in ascending key order. -/
def ascending (kv : Metrics.StrMap Namespace) : List (Σ _ : String, Namespace) :=
  kv.entries.insertionSort fun a b => keyLess b.1.toList a.1.toList = false

/-- `list`: `Ascend` from the pivot `path.Clean(ns)`, which visits the entries from the first key
not below it, collecting them until the first key without it as a prefix. -/
def list (e : ConfigManager) (ns : String) : List (Σ _ : String, Namespace) :=
  let k := clean ns
  ((ascending e.kv).dropWhile fun item => keyLess item.1.toList k.toList).takeWhile fun item =>
    k.toList.isPrefixOf item.1.toList

/-- `set`. -/
def set (e : ConfigManager) (ns key : String) (val : Namespace) : ConfigManager :=
  { kv := e.kv.insert (clean (join [ns, key])) val }

/-- `del`. -/
def del (e : ConfigManager) (ns key : String) : ConfigManager :=
  { kv := e.kv.erase (clean (join [ns, key])) }

/-- `GetNamespace`. -/
def getNamespace (e : ConfigManager) (ns : String) : Except String Namespace :=
  e.get pathPrefixNamespace ns

/-- `ListAllNamespace`. -/
def listAllNamespace (e : ConfigManager) : List Namespace :=
  (e.list pathPrefixNamespace).map (·.2)

/-- `SetNamespace`. -/
def setNamespace (e : ConfigManager) (ns : String) (nsc : Namespace) :
    Except String ConfigManager :=
  if ns = "" ∨ nsc.name = "" then .error "namespace name can not be empty string"
  else .ok (e.set pathPrefixNamespace ns nsc)

/-- `DelNamespace`. -/
def delNamespace (e : ConfigManager) (ns : String) : ConfigManager :=
  e.del pathPrefixNamespace ns

end ConfigManager

end TiProxy.Config

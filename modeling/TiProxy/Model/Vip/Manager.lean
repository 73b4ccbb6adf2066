import Mathlib.Logic.Function.Basic

/-! # The VIP manager

Each TiProxy node runs a `vipManager` that takes part in an etcd election for the key
`vipKey`. The election calls `OnElected` on the node that becomes the owner and `OnRetired` on a
node that stops being it; `Start` calls one of them for the ownership the election reports at
startup, since a node that was down and restarted may still hold the address. `OnElected` sets
`VIPGauge` to 1 and, unless the link already has the address, adds it and broadcasts ARP;
`OnRetired` sets the gauge to 0 and deletes the address when the link has it. A failing network
operation is logged and ends the callback.

`networkOperation` calls netlink and arping, and the election is etcd's; both are declared
outside src/. The model keeps what the manager reads of them: the error each network call returns
during a callback, which is an input, and whether the virtual IP is among the link's addresses.
`HasIP` lists the addresses and reports whether one equals the virtual IP; `AddIP` and `DeleteIP`
are `netlink.AddrAdd` and `netlink.AddrDel`, which add and delete it when they succeed and leave
the link as it was when they fail; `SendARP` broadcasts a gratuitous ARP and changes no address. A
cluster is a map from its nodes to their states, and a run is the callbacks the election
delivers, one node at a time.
-/

namespace TiProxy.Vip

/-- The election key of the VIP. -/
def vipKey : String := "/tiproxy/vip/owner"

/-- The election session's TTL in seconds. -/
def sessionTTL : Nat := 5

/-- The level of a line the manager logs. -/
inductive LogLevel where
  | info
  | warn
  | error
deriving DecidableEq, Repr

/-- A line the manager logs: its level, its message, and the error it carries with `zap.Error`. -/
structure LogLine where
  level : LogLevel
  msg : String
  err : Option String
deriving DecidableEq, Repr

/-- What the network operation returns during one callback: the error of each of `HasIP`,
`AddIP`, `SendARP` and `DeleteIP`, `none` when the call succeeds. -/
structure NetworkResults where
  hasIP : Option String
  addIP : Option String
  sendARP : Option String
  deleteIP : Option String
deriving DecidableEq, Repr

/-- A node as its VIP manager sees it: the value of `metrics.VIPGauge`, and whether the virtual IP
is on the node's link. -/
structure Node where
  vipGauge : Nat
  hasVIP : Bool
deriving DecidableEq, Repr

/-- `OnElected`. -/
def onElected (r : NetworkResults) (vm : Node) : Node × LogLine :=
  let vm := { vm with vipGauge := 1 }
  match r.hasIP with
  | some err => (vm, ⟨.error, "checking addresses failed", some err⟩)
  | none =>
    if vm.hasVIP then (vm, ⟨.info, "already has VIP, do nothing", none⟩)
    else match r.addIP with
      | some err => (vm, ⟨.error, "adding address failed", some err⟩)
      | none =>
        let vm := { vm with hasVIP := true }
        match r.sendARP with
        | some err => (vm, ⟨.error, "broadcast ARP failed", some err⟩)
        | none => (vm, ⟨.info, "adding VIP success", none⟩)

/-- `OnRetired`. -/
def onRetired (r : NetworkResults) (vm : Node) : Node × LogLine :=
  let vm := { vm with vipGauge := 0 }
  match r.hasIP with
  | some err => (vm, ⟨.error, "checking addresses failed", some err⟩)
  | none =>
    if !vm.hasVIP then (vm, ⟨.info, "does not have VIP, do nothing", none⟩)
    else match r.deleteIP with
      | some err => (vm, ⟨.error, "deleting address failed", some err⟩)
      | none => ({ vm with hasVIP := false }, ⟨.info, "deleting VIP success", none⟩)

/-- `NewNetworkOperation`, through `initAddr`: the error it returns, given the OS and the errors of
`netlink.ParseAddr` and `netlink.LinkByName`, which `errors.WithStack` wraps. -/
def newNetworkOperation (goos : String) (parseAddr linkByName : Option String) : Option String :=
  if goos ≠ "linux" then some "VIP is only supported on Linux"
  else match parseAddr with
    | some err => some err
    | none => linkByName

/-- The configuration `NewVIPManager` reads: `cfg.HA.VirtualIP` and `cfg.HA.Interface`. -/
structure HAConfig where
  virtualIP : String
  iface : String
deriving DecidableEq, Repr

/-- `NewVIPManager`, given the error `NewNetworkOperation` returns: whether a manager is made, the
error returned, and the line logged. VIP is disabled, with no manager and no error, when the
address or the link is missing. -/
def newVIPManager (cfg : HAConfig) (operationErr : Option String) :
    (Bool × Option String) × Option LogLine :=
  if cfg.virtualIP.length = 0 ∧ cfg.iface.length = 0 then ((false, none), none)
  else if cfg.virtualIP.length = 0 ∨ cfg.iface.length = 0 then
    ((false, none), some ⟨.warn,
      "Both address and link must be specified to enable VIP. VIP is disabled", none⟩)
  else match operationErr with
    | some err => ((false, some err), some ⟨.error, "init network operation failed", some err⟩)
    | none => ((true, none), none)

/-- `Start`, given the error `cfg.GetIPPort` returns and whether the election reports the node as
the owner: the callback for that ownership, before the election starts. -/
def start (getIPPort : Option String) (isOwner : Bool) (r : NetworkResults) (vm : Node) :
    Except String (Node × LogLine) :=
  match getIPPort with
  | some err => .error err
  | none => .ok (if isOwner then onElected r vm else onRetired r vm)

section Cluster

variable {n : Nat}

/-- A callback the election delivers to one node of a cluster of `n` nodes, with what the network
returns during it. -/
inductive Event (n : Nat) where
  | elected (node : Fin n) (results : NetworkResults)
  | retired (node : Fin n) (results : NetworkResults)
deriving DecidableEq, Repr

/-- The node the callback runs on. -/
def Event.node : Event n → Fin n
  | .elected node _ => node
  | .retired node _ => node

/-- The callback on its node's state. -/
def Event.apply : Event n → Node → Node × LogLine
  | .elected _ r, vm => onElected r vm
  | .retired _ r, vm => onRetired r vm

/-- One callback: its node takes the state the callback leaves; the others are unchanged. -/
def step (nodes : Fin n → Node) (e : Event n) : Fin n → Node :=
  Function.update nodes e.node (e.apply (nodes e.node)).1

/-- The callbacks one after the other. -/
def run (nodes : Fin n → Node) (events : List (Event n)) : Fin n → Node :=
  events.foldl step nodes

end Cluster

end TiProxy.Vip

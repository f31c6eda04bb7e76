/-
# PassiveBitcoin.Manager.LocalAddrs — where the manager listens

`createListeners` opens a listener on every IP `FindLocalIPs` returns, at
`GetDefaultPort()`. `FindLocalIPs` walks the interfaces `net.Interfaces()` returns,
skips those that are down or loopback and those whose `Addrs()` fails, and keeps the
IPs of their `*net.IPNet` and `*net.IPAddr` addresses that are not loopback and have
an IPv4 form. The system model (`Manager.System`) takes the keys `createListeners`
computes as `ManagerConfig.localAddrs`; `localAddrs` computes them from the interfaces
and the network.

* `mem_findLocalIPs` — what `FindLocalIPs` returns;
* `listenIndex_keys_of_reachable` — in every run each key of `listenIndex` is one of
  `createListeners`' keys: `Stop` closes listeners without removing them, and a
  returning handler only marks its own;
* `listens_only_on_local_ipv4` — so a manager started on the local addresses listens,
  in every run, only on IPv4 addresses that are not loopback, of interfaces that are up
  and not loopback, at the default port.

`MinUint32`, the other helper of the file, returns the larger of its arguments
(`minUint32_eq_max`).
-/
import PassiveBitcoin.Manager.System

namespace PassiveBitcoin

set_option autoImplicit false

/-- An address `iface.Addrs()` returns, by its dynamic type. -/
inductive IfaceAddr where
  | ipNet (ip : List UInt8)
  | ipAddr (ip : List UInt8)
  /-- Any other `net.Addr`. -/
  | other
  deriving DecidableEq, Repr

/-- A `net.Interface`: the two flags `FindLocalIPs` tests, and what `Addrs()` returns. -/
structure Interface where
  /-- `iface.Flags&net.FlagUp != 0`. -/
  up : Bool
  /-- `iface.Flags&net.FlagLoopback != 0`. -/
  loopback : Bool
  addrs : Except String (List IfaceAddr)

/-- The values of `protocolNetwork` `GetDefaultPort` tells apart, and any other. -/
inductive BitcoinNet where
  | simNet
  | testNet
  | testNet3
  | mainNet
  | other
  deriving DecidableEq, Repr

/-- `net.IPv6loopback`, `::1`. -/
def ipv6loopback : List UInt8 := List.replicate 15 0 ++ [1]

/-- `ip.IsLoopback()`: an IPv4 address in 127/8, or `ip.Equal(IPv6loopback)`, which for
an address of sixteen bytes compares them and for one of four is false. -/
def isLoopback (ip : List UInt8) : Bool :=
  (match TCPAddr.to4 ip with
    | some ip4 => ip4.head? == some 127
    | none => false) || ip == ipv6loopback

/-- One pass of `FindLocalIPs`' inner loop: the IP an interface address contributes. -/
def localIP : IfaceAddr → Option (List UInt8)
  | .ipNet ip | .ipAddr ip =>
      if isLoopback ip then none
      else if (TCPAddr.to4 ip).isNone then none
      else some ip
  | .other => none

/-- One pass of `FindLocalIPs`' outer loop: the IPs an interface contributes. -/
def interfaceIPs (iface : Interface) : List (List UInt8) :=
  if !iface.up then []
  else if iface.loopback then []
  else
    match iface.addrs with
    | .error _ => []
    | .ok addrs => addrs.filterMap localIP

/-- `FindLocalIPs()`, over what `net.Interfaces()` returns. -/
def findLocalIPs : Except String (List Interface) → List (List UInt8)
  | .error _ => []
  | .ok ifaces => ifaces.flatMap interfaceIPs

/-- `GetDefaultPort()`. -/
def getDefaultPort : BitcoinNet → Nat
  | .simNet => 18555
  | .testNet => 18444
  | .testNet3 => 18333
  | .mainNet => 8333
  | .other => 0

/-- `MinUint32(x, y)`. -/
def minUint32 (x y : UInt32) : UInt32 := if x > y then x else y

/-- `MinUint32` returns the larger of its arguments. -/
theorem minUint32_eq_max (x y : UInt32) : minUint32 x y = max x y := by
  unfold minUint32
  show _ = if x ≤ y then y else x
  by_cases h : x ≤ y
  · rw [if_pos h, if_neg (show ¬x > y from UInt32.not_lt.mpr h)]
  · rw [if_neg h, if_pos (show x > y from UInt32.not_le.mp h)]

/-- The key `createListeners` files a listener on `ip` under: `String()` of
`ResolveTCPAddr("tcp", ip.String() + ":" + port)`. For an address with an IPv4 form,
as `FindLocalIPs` returns them, the resolved address is `ip` in its sixteen-byte form,
which prints as `ip` does. -/
def listenKey (port : Nat) (ip : List UInt8) : String := TCPAddr.string ⟨ip, port, ""⟩

/-- The keys `createListeners` goes through, in order. -/
def localAddrs (ifaces : Except String (List Interface)) (net : BitcoinNet) : List String :=
  (findLocalIPs ifaces).map (listenKey (getDefaultPort net))

theorem localIP_eq_some {a : IfaceAddr} {ip : List UInt8} :
    localIP a = some ip ↔ (a = .ipNet ip ∨ a = .ipAddr ip) ∧ isLoopback ip = false ∧ (TCPAddr.to4 ip).isSome := by
  cases a with
  | other => simp [localIP]
  | ipNet ip' | ipAddr ip' =>
      simp only [localIP, IfaceAddr.ipNet.injEq, IfaceAddr.ipAddr.injEq, reduceCtorEq, or_false, false_or]
      constructor
      · intro h
        split at h
        · cases h
        split at h
        · cases h
        cases h
        exact ⟨rfl, by simpa using ‹¬isLoopback ip = true›,
          Option.ne_none_iff_isSome.mp (by simpa using ‹¬(TCPAddr.to4 ip).isNone = true›)⟩
      · rintro ⟨rfl, hl, h4⟩
        rw [if_neg (by simp [hl]), if_neg (by simpa using Option.ne_none_iff_isSome.mpr h4)]

theorem mem_findLocalIPs {ifaces : Except String (List Interface)} {ip : List UInt8} :
    ip ∈ findLocalIPs ifaces ↔
      ∃ list, ifaces = .ok list ∧ ∃ iface ∈ list, iface.up ∧ iface.loopback = false ∧
        ∃ addrs, iface.addrs = .ok addrs ∧ (IfaceAddr.ipNet ip ∈ addrs ∨ IfaceAddr.ipAddr ip ∈ addrs) ∧
          isLoopback ip = false ∧ (TCPAddr.to4 ip).isSome := by
  cases ifaces with
  | error e => simp [findLocalIPs]
  | ok list =>
      simp only [findLocalIPs, List.mem_flatMap, Except.ok.injEq, exists_eq_left']
      refine exists_congr fun iface => and_congr_right fun _ => ?_
      unfold interfaceIPs
      cases iface.up <;> cases iface.loopback <;>
        simp only [Bool.not_false, Bool.not_true, if_true, if_false, List.not_mem_nil, false_iff, Bool.false_eq_true,
          Bool.true_eq_false, true_and, false_and, not_false_eq_true]
      cases iface.addrs with
      | error e => simp
      | ok addrs =>
          simp only [List.mem_filterMap, localIP_eq_some, Except.ok.injEq, exists_eq_left']
          constructor
          · rintro ⟨a, ha, (rfl | rfl), hl, h4⟩
            exacts [⟨.inl ha, hl, h4⟩, ⟨.inr ha, hl, h4⟩]
          · rintro ⟨ha | ha, hl, h4⟩
            exacts [⟨_, ha, .inl rfl, hl, h4⟩, ⟨_, ha, .inr rfl, hl, h4⟩]

namespace Manager

theorem mem_createListeners {listenIndex : GoMap String Listener} {keys : List String} {k : String}
    (h : k ∈ createListeners listenIndex keys) : k ∈ listenIndex ∨ k ∈ keys := by
  induction keys generalizing listenIndex with
  | nil => exact .inl h
  | cons key rest ih =>
      rcases ih h with hk | hk
      · split at hk
        · exact .inl hk
        · rcases GoMap.mem_set.mp hk with rfl | hk
          exacts [.inr (List.mem_cons_self _ _), .inl hk]
      · exact .inr (List.mem_cons_of_mem _ hk)

/-- Every key of `listenIndex` is one `createListeners` went through. -/
def ListenKeys (cfg : ManagerConfig) (s : ManagerState) : Prop := ∀ k ∈ s.listenIndex, k ∈ cfg.localAddrs

theorem step_listenKeys {cfg : ManagerConfig} {s s' : ManagerState} {e : ManagerEvent} (hs : ListenKeys cfg s)
    (h : step cfg s e = some s') : ListenKeys cfg s' := by
  cases step_moves h with
  | start _ =>
      intro k hk
      rcases mem_createListeners hk with hk | hk
      exacts [hs k hk, hk]
  | stopSignals _ =>
      intro k hk
      rw [GoMap.mem_iff_get, GoMap.get_mapValues, Option.isSome_map'] at hk
      exact hs k (GoMap.mem_iff_get.mpr hk)
  | listenerExit hl _ =>
      intro k hk
      rcases GoMap.mem_set.mp hk with rfl | hk
      exacts [hs _ (GoMap.mem_of_get_eq_some hl), hs k hk]
  | _ => exact hs

theorem listenIndex_keys_of_reachable {cfg : ManagerConfig} {s : ManagerState} (h : Reachable cfg s) :
    ListenKeys cfg s :=
  Trace.ReachableUnder.inv _ (fun k hk => absurd (GoMap.mem_iff_get.mp hk) (by simp [newManager]))
    (fun _ _ _ _ hs hi => step_listenKeys hi hs) h

/-- A manager whose `createListeners` goes through the addresses `FindLocalIPs` finds
listens, in every run, only at the default port on IPv4 addresses that are not loopback,
each the address of an interface that is up and not loopback. -/
theorem listens_only_on_local_ipv4 (ifaces : Except String (List Interface)) (net : BitcoinNet)
    (cfg : ManagerConfig) (hcfg : cfg.localAddrs = localAddrs ifaces net) (s : ManagerState) (h : Reachable cfg s)
    {key : String} (hk : key ∈ s.listenIndex) :
    ∃ ip, key = listenKey (getDefaultPort net) ip ∧ isLoopback ip = false ∧ (TCPAddr.to4 ip).isSome ∧
      ∃ list, ifaces = .ok list ∧ ∃ iface ∈ list, iface.up ∧ iface.loopback = false ∧
        ∃ addrs, iface.addrs = .ok addrs ∧ (IfaceAddr.ipNet ip ∈ addrs ∨ IfaceAddr.ipAddr ip ∈ addrs) := by
  have hkey := listenIndex_keys_of_reachable h key hk
  rw [hcfg, localAddrs, List.mem_map] at hkey
  obtain ⟨ip, hip, rfl⟩ := hkey
  obtain ⟨list, hl, iface, hi, hup, hlo, addrs, ha, hmem, hlb, h4⟩ := mem_findLocalIPs.mp hip
  exact ⟨ip, rfl, hlb, h4, list, hl, iface, hi, hup, hlo, addrs, ha, hmem⟩

/-- One interface with an IPv4 address, a loopback address and another kind of address,
and a loopback interface: after `Start` the manager listens on the IPv4 address alone. -/
theorem listens_on_interface_address :
    let ifaces : Except String (List Interface) :=
      .ok [⟨true, false, .ok [.ipNet [10, 0, 0, 5], .ipNet [127, 0, 0, 1], .other]⟩,
        ⟨true, true, .ok [.ipAddr [127, 0, 0, 1]]⟩]
    let cfg : ManagerConfig := ⟨8, 8, 8, localAddrs ifaces .mainNet⟩
    ∃ s, run cfg newManager [.start] = some s ∧ cfg.localAddrs = localAddrs ifaces .mainNet ∧
      s.listenIndex.len = 1 ∧ "10.0.0.5:8333" ∈ s.listenIndex ∧
      ∃ ip, "10.0.0.5:8333" = listenKey (getDefaultPort .mainNet) ip ∧ isLoopback ip = false ∧
        (TCPAddr.to4 ip).isSome ∧
        ∃ list, ifaces = .ok list ∧ ∃ iface ∈ list, iface.up ∧ iface.loopback = false ∧
          ∃ addrs, iface.addrs = .ok addrs ∧ (IfaceAddr.ipNet ip ∈ addrs ∨ IfaceAddr.ipAddr ip ∈ addrs) := by
  intro ifaces cfg
  refine ⟨_, (Option.some_get ?h).symm, rfl, ?len, ?hk,
    listens_only_on_local_ipv4 ifaces .mainNet cfg rfl _ (Trace.reachable_run_get _ ?h) ?hk⟩
  all_goals decide

end Manager

end PassiveBitcoin

import K8Labs.HostAgent.Names
import K8Labs.Python.Document

/-!
# The address that the host agent listens on

`agent_address` of `scripts/host_agent.py`: the first IPv4 subnet of the network that `podman`
prints, and the address behind its gateway unless `HOST_AGENT_ADDRESS` names another.  The check
before the return refuses the gateway and what lies outside the network, but neither the network's
own address nor its broadcast address.

* `returns_usable_iff` : **only addresses that a host beside the gateway can have are returned if and
  only if the candidate is neither the first nor the last address of the network**, or is refused for
  another reason.
-/

namespace HostAgent

open Py (Exc Value natDigits digitsValue valueError)

/-! ### IPv4 addresses -/

namespace IPv4

/-- `int(address)`. -/
def toNat (a : IPv4) : ℕ :=
  a.first.toNat * 2 ^ 24 + a.second.toNat * 2 ^ 16 + a.third.toNat * 2 ^ 8 + a.fourth.toNat

/-- The address of a number. -/
def ofNat (n : ℕ) : IPv4 :=
  ⟨.ofNat (n / 2 ^ 24), .ofNat (n / 2 ^ 16), .ofNat (n / 2 ^ 8), .ofNat n⟩

theorem toNat_lt (a : IPv4) : a.toNat < 2 ^ 32 := by
  have h₁ := a.first.toNat_lt
  have h₂ := a.second.toNat_lt
  have h₃ := a.third.toNat_lt
  have h₄ := a.fourth.toNat_lt
  rw [toNat]
  omega

theorem toNat_ofNat {n : ℕ} (h : n < 2 ^ 32) : (ofNat n).toNat = n := by
  simp only [toNat, ofNat, UInt8.toNat_ofNat']
  omega

/-- One number of an address: ASCII digits, at most three of them, without leading zeros. -/
def octet? (cs : List Char) : Option UInt8 :=
  if cs ≠ [] ∧ cs.all Char.isDigit ∧ cs.length ≤ 3 ∧ (cs = ['0'] ∨ cs.head? ≠ some '0') ∧
      digitsValue cs ≤ 255 then
    some (.ofNat (digitsValue cs))
  else none

/-- `IPv4Address(text)`. -/
def read? (cs : List Char) : Option IPv4 :=
  match cs.splitOn '.' with
  | [a, b, c, d] => do return ⟨← octet? a, ← octet? b, ← octet? c, ← octet? d⟩
  | _ => none

/-- `IPv4Address(value)`: an integer is an address, and of anything else its text is read. -/
def ofValue : Value → Option IPv4
  | .scalar (.bool b) => some (ofNat b.toNat)
  | .scalar (.int n) => if 0 ≤ n ∧ n < 2 ^ 32 then some (ofNat n.toNat) else none
  | v => read? v.text.toList

/-- `address.is_unspecified`. -/
def isUnspecified (a : IPv4) : Bool := a = ofNat 0

/-- `address.is_loopback`: in `127.0.0.0/8`. -/
def isLoopback (a : IPv4) : Bool := a.first = 127

/-- `address.is_multicast`: in `224.0.0.0/4`. -/
def isMulticast (a : IPv4) : Bool := a.first.toNat / 16 = 14

end IPv4

/-! ### Networks -/

/-- An IPv4 network, without host bits. -/
structure Network where
  /-- `network.network_address`. -/
  address : IPv4
  /-- `network.prefixlen`. -/
  prefixLength : Fin 33
  /-- No host bits are set. -/
  dvd_address : 2 ^ (32 - prefixLength.val) ∣ address.toNat
  deriving DecidableEq

namespace Network

variable {network : Network} {a : IPv4}

/-- `network.num_addresses`. -/
def size (network : Network) : ℕ := 2 ^ (32 - network.prefixLength.val)

/-- `network.broadcast_address`. -/
def broadcast (network : Network) : IPv4 := .ofNat (network.address.toNat + network.size - 1)

/-- `address in network`: the address without its host bits is that of the network. -/
def contains (network : Network) (a : IPv4) : Bool :=
  a.toNat / network.size * network.size = network.address.toNat

theorem size_pos : 0 < network.size := Nat.two_pow_pos _

theorem address_add_size_le : network.address.toNat + network.size ≤ 2 ^ 32 := by
  have hsize : network.size ∣ 2 ^ 32 := Nat.pow_dvd_pow 2 (Nat.sub_le _ _)
  obtain ⟨k, hk⟩ : network.size ∣ network.address.toNat := network.dvd_address
  obtain ⟨m, hm⟩ := hsize
  -- both ends are multiples of the size
  have hlt := network.address.toNat_lt
  rw [hk, hm] at *
  have hkm : k < m := lt_of_mul_lt_mul_left hlt (Nat.zero_le _)
  calc network.size * k + network.size = network.size * (k + 1) := by ring
    _ ≤ network.size * m := Nat.mul_le_mul_left _ hkm

theorem toNat_broadcast :
    network.broadcast.toNat = network.address.toNat + network.size - 1 := by
  have := network.address_add_size_le
  have := network.size_pos
  exact IPv4.toNat_ofNat (by omega)

theorem contains_iff : network.contains a = true ↔
    network.address.toNat ≤ a.toNat ∧ a.toNat ≤ network.broadcast.toNat := by
  have hpos := network.size_pos
  have hrem := Nat.mod_lt a.toNat hpos
  have hdiv := Nat.div_add_mod' a.toNat network.size
  obtain ⟨k, hk⟩ : network.size ∣ network.address.toNat := network.dvd_address
  rw [contains, decide_eq_true_eq, toNat_broadcast]
  constructor
  · intro heq
    omega
  · rintro ⟨hlow, hhigh⟩
    have hquot : a.toNat / network.size = k := by
      rw [Nat.div_eq_iff hpos]
      rw [hk, mul_comm] at hlow hhigh
      omega
    rw [hquot, hk, mul_comm]

theorem contains_address : network.contains network.address = true := by
  have := network.size_pos
  rw [contains_iff, toNat_broadcast]
  omega

theorem contains_broadcast : network.contains network.broadcast = true := by
  have := network.size_pos
  rw [contains_iff, toNat_broadcast]
  omega

end Network

/-- The length of the prefix that a mask has: of a network mask or of a host mask. -/
def maskLength? (mask : ℕ) : Option (Fin 33) :=
  (List.finRange 33).find? (fun p => mask = 2 ^ 32 - 2 ^ (32 - p.val)) <|>
    (List.finRange 33).find? (fun p => mask = 2 ^ (32 - p.val) - 1)

/-- What stands behind the `/` of a network: the length of the prefix, or a mask. -/
def prefixLength? (cs : List Char) : Option (Fin 33) :=
  (do guard (cs ≠ [] ∧ cs.all Char.isDigit)
      let n ← (Py.intOfDigits cs).toOption
      if h : n < 33 then return ⟨n, h⟩ else none) <|>
    do maskLength? (← IPv4.read? cs).toNat

/-- The address and the length of the prefix in `IPv4Network(value)`. -/
def splitNetwork : Value → Option (IPv4 × Fin 33)
  | .scalar (.bool b) => some (.ofNat b.toNat, 32)
  | .scalar (.int n) => do return (← IPv4.ofValue (.int n), 32)
  | v =>
    match v.text.toList.splitOn '/' with
    | [address] => do return (← IPv4.read? address, 32)
    | [address, mask] => do return (← IPv4.read? address, ← prefixLength? mask)
    | _ => none

/-! ### The choice -/

/-- An address: the number that an IPv6 address has is all that matters of it. -/
inductive Address where
  | v4 (a : IPv4)
  | v6 (n : ℕ)
  deriving DecidableEq

/-- The IPv6 half of `ipaddress`.  No IPv6 address is returned, and no result depends on how such an
address is spelled. -/
structure Ipv6 where
  /-- `IPv6Address(value)`, as a number. -/
  address : Value → Option ℕ
  /-- `IPv6Network(value)`, with the exception that `ip_network` ends in when it fails. -/
  network : Value → Except Exc Unit

/-- `address + 1`. -/
def Address.next : Address → Except Exc Address
  | .v4 a =>
    if a.toNat + 1 < 2 ^ 32 then .ok (.v4 (.ofNat (a.toNat + 1)))
    else valueError "4294967296 (>= 2**32) is not permitted as an IPv4 address"
  | .v6 n =>
    if n + 1 < 2 ^ 128 then .ok (.v6 (n + 1))
    else valueError
      "340282366920938463463374607431768211456 (>= 2**128) is not permitted as an IPv6 address"

/-- `value[0]`. -/
def first : Value → Except Exc Value
  | .list (v :: _) => .ok v
  | .list [] => .error ⟨.indexError, "list index out of range"⟩
  | .dict items =>
    match List.lookup (.int 0) items with
    | some v => .ok v
    | none => .error ⟨.keyError, "0"⟩
  | .scalar (.str s) =>
    match s.toList with
    | c :: _ => .ok (.str c.toString)
    | [] => .error ⟨.indexError, "string index out of range"⟩
  | _ => Py.typeError "object is not subscriptable"

section Choice

variable (ipv6 : Ipv6)

/-- `ip_address(value)`. -/
def ipAddress (v : Value) : Except Exc Address :=
  match IPv4.ofValue v, ipv6.address v with
  | some a, _ => .ok (.v4 a)
  | none, some n => .ok (.v6 n)
  | none, none => valueError (v.repr ++ " does not appear to be an IPv4 or IPv6 address")

/-- `ip_network(value)`, `none` for an IPv6 network.  Host bits are an error of their own: the value
is not read as an IPv6 network then. -/
def ipNetwork (v : Value) : Except Exc (Option Network) :=
  match splitNetwork v with
  | some (address, p) =>
    if h : 2 ^ (32 - p.val) ∣ address.toNat then .ok (some ⟨address, p, h⟩)
    else valueError (address.text ++ "/" ++ toString p.val ++ " has host bits set")
  | none => do
    ipv6.network v
    return none

/-- The first IPv4 subnet, with its network; `none` when `next` finds none. -/
def firstIPv4 : List Value → Except Exc (Option (Value × Network))
  | [] => .ok none
  | subnet :: rest => do
    match ← ipNetwork ipv6 (← subnet.index "subnet") with
    | some network => return some (subnet, network)
    | none => firstIPv4 rest

/-- The network and its gateway in what `podman network inspect kind` prints, `none` for the
`StopIteration` of `next`. -/
def readNetwork (inspected : Except Exc Value) : Except Exc (Option (Network × Address)) := do
  let networks ← inspected
  let subnets ← (← first networks).index "subnets"
  match ← firstIPv4 ipv6 (← subnets.iterate) with
  | some (subnet, network) => return some (network, ← ipAddress ipv6 (← subnet.index "gateway"))
  | none => return none

/-- The `try` statement of `agent_address`. -/
def discover (inspected : Except Exc Value) : Except Exc (Network × Address) :=
  let unable := .error ⟨.systemExit, "ERROR: unable to discover the Kind/Podman IPv4 network; " ++
    "create the Kind network first"⟩
  match readNetwork ipv6 inspected with
  | .ok (some found) => .ok found
  | .ok none => unable
  | .error e =>
    if e.caughtBy [.keyError, .indexError, .typeError, .valueError, .calledProcessError] then unable
    else .error e

/-- The address that is looked at: the one that `HOST_AGENT_ADDRESS` names, or the one behind the
gateway. -/
def candidate (override : Option String) (gateway : Address) : Except Exc Address :=
  match override with
  | some text => if text = "" then gateway.next else ipAddress ipv6 (.str text)
  | none => gateway.next

/-- The check before the return. -/
def checked (network : Network) (gateway : Address) : Address → Except Exc String
  | .v6 _ => refused
  | .v4 a =>
    if ¬ network.contains a ∨ .v4 a = gateway ∨ a.isUnspecified ∨ a.isLoopback ∨ a.isMulticast then
      refused
    else .ok a.text
where
  refused : Except Exc String := .error ⟨.systemExit,
    "ERROR: HOST_AGENT_ADDRESS must be a non-gateway IPv4 address on the Kind network"⟩

/-- `agent_address`. -/
def agentAddress (inspected : Except Exc Value) (override : Option String) :
    Except Exc String := do
  let (network, gateway) ← discover ipv6 inspected
  checked network gateway (← candidate ipv6 override gateway)

end Choice

/-! ### The addresses of hosts -/

/-- An address of the network that a host beside the gateway can have. -/
structure Usable (network : Network) (gateway : Address) (a : IPv4) : Prop where
  contains : network.contains a
  ne_gateway : .v4 a ≠ gateway
  ne_address : a ≠ network.address
  ne_broadcast : a ≠ network.broadcast

section Returns

variable {ipv6 : Ipv6} {inspected : Except Exc Value} {override : Option String}
  {network : Network} {gateway : Address}

theorem checked_eq_ok {value : Address} {text : String} :
    checked network gateway value = .ok text ↔
      ∃ a, value = .v4 a ∧ text = a.text ∧ network.contains a ∧ .v4 a ≠ gateway ∧
        ¬ a.isUnspecified ∧ ¬ a.isLoopback ∧ ¬ a.isMulticast := by
  cases value with
  | v4 a =>
    rw [checked, checked.refused, Py.ite_error_eq_ok]
    simp only [not_or, not_not, Except.ok.injEq]
    constructor
    · rintro ⟨hpassed, rfl⟩
      exact ⟨a, rfl, rfl, hpassed⟩
    · rintro ⟨_, heq, htext, hpassed⟩
      cases heq
      exact ⟨hpassed, htext.symm⟩
  | v6 n => simp [checked, checked.refused]

/-- What is returned: the candidate, an address of the network that no check refused. -/
theorem agentAddress_eq_ok (h : discover ipv6 inspected = .ok (network, gateway)) {text : String} :
    agentAddress ipv6 inspected override = .ok text ↔
      ∃ a, text = a.text ∧ candidate ipv6 override gateway = .ok (.v4 a) ∧ network.contains a ∧
        .v4 a ≠ gateway ∧ ¬ a.isUnspecified ∧ ¬ a.isLoopback ∧ ¬ a.isMulticast := by
  have hrun : agentAddress ipv6 inspected override =
      (candidate ipv6 override gateway).bind (checked network gateway) := by
    rw [agentAddress, h]
    rfl
  rw [hrun, Py.bind_eq_ok]
  constructor
  · rintro ⟨value, hvalue, hchecked⟩
    obtain ⟨a, rfl, htext, hpassed⟩ := checked_eq_ok.1 hchecked
    exact ⟨a, htext, hvalue, hpassed⟩
  · rintro ⟨a, htext, hvalue, hpassed⟩
    exact ⟨_, hvalue, checked_eq_ok.2 ⟨a, rfl, htext, hpassed⟩⟩

/-- **What `agent_address` returns.**  Every address that it returns is one that a host beside the
gateway can have, and it raises where there is none, if and only if the candidate is neither the
network's own address nor its broadcast address, unless it is refused as the gateway or as an
address that no host has anywhere. -/
theorem returns_usable_iff (h : discover ipv6 inspected = .ok (network, gateway)) :
    ((∀ text, agentAddress ipv6 inspected override = .ok text →
        ∃ a, text = a.text ∧ Usable network gateway a) ∧
      ((¬ ∃ a, Usable network gateway a) →
        ∃ e, agentAddress ipv6 inspected override = .error e)) ↔
      ∀ a, candidate ipv6 override gateway = .ok (.v4 a) →
        (.v4 a = gateway ∨ a.isUnspecified ∨ a.isLoopback ∨ a.isMulticast) ∨
          a ≠ network.address ∧ a ≠ network.broadcast := by
  constructor
  · rintro ⟨hreturns, -⟩ a ha
    by_contra hnot
    simp only [not_or, not_and_or, not_not] at hnot
    obtain ⟨⟨hgateway, hunspecified, hloopback, hmulticast⟩, hend⟩ := hnot
    have hcontains : network.contains a = true := by
      rcases hend with rfl | rfl
      · exact network.contains_address
      · exact network.contains_broadcast
    obtain ⟨b, hb, husable⟩ := hreturns a.text ((agentAddress_eq_ok h).2
      ⟨a, rfl, ha, hcontains, hgateway, hunspecified, hloopback, hmulticast⟩)
    cases IPv4.text_injective hb
    exact hend.elim husable.ne_address husable.ne_broadcast
  · intro hcandidate
    have hreturns : ∀ text, agentAddress ipv6 inspected override = .ok text →
        ∃ a, text = a.text ∧ Usable network gateway a := by
      intro text htext
      obtain ⟨a, rfl, ha, hcontains, hgateway, hunspecified, hloopback, hmulticast⟩ :=
        (agentAddress_eq_ok h).1 htext
      obtain hrefused | ⟨hfirst, hlast⟩ := hcandidate a ha
      · simp_all
      · exact ⟨a, rfl, hcontains, hgateway, hfirst, hlast⟩
    refine ⟨hreturns, fun hnone => ?_⟩
    cases hcall : agentAddress ipv6 inspected override with
    | error e => exact ⟨e, rfl⟩
    | ok text =>
      obtain ⟨a, -, ha⟩ := hreturns text hcall
      exact absurd ⟨a, ha⟩ hnone

end Returns

/-! ### A network with its gateway at the bottom and at the top -/

/-- What `podman` prints for a network with one subnet. -/
def printedNetwork (subnet gateway : String) : Value :=
  .list [.dict [(.str "name", .str "kind"), (.str "subnets",
    .list [.dict [(.str "subnet", .str subnet), (.str "gateway", .str gateway)]])]]

/-- No text is an IPv6 address. -/
def Ipv6.absent : Ipv6 where
  address := fun _ => none
  network := fun v => valueError (v.repr ++ " does not appear to be an IPv4 or IPv6 network")

/-- `10.89.0.0/24`. -/
def kindNetwork : Network := ⟨⟨10, 89, 0, 0⟩, 24, by decide +kernel⟩

theorem returns_usable_behind_first :
    ∃ gateway,
      discover .absent (.ok (printedNetwork "10.89.0.0/24" "10.89.0.1")) =
        .ok (kindNetwork, gateway) ∧
      (∀ text, agentAddress .absent (.ok (printedNetwork "10.89.0.0/24" "10.89.0.1")) none =
          .ok text → ∃ a, text = a.text ∧ Usable kindNetwork gateway a) ∧
        ((¬ ∃ a, Usable kindNetwork gateway a) →
          ∃ e, agentAddress .absent (.ok (printedNetwork "10.89.0.0/24" "10.89.0.1")) none =
            .error e) := by
  have hfound : discover .absent (.ok (printedNetwork "10.89.0.0/24" "10.89.0.1")) =
      .ok (kindNetwork, .v4 ⟨10, 89, 0, 1⟩) := by
    decide +kernel
  refine ⟨_, hfound, (returns_usable_iff hfound).2 fun a ha => .inr ?_⟩
  have hnext : candidate .absent none (.v4 ⟨10, 89, 0, 1⟩) = .ok (.v4 ⟨10, 89, 0, 2⟩) := by
    decide +kernel
  rw [hnext] at ha
  cases ha
  decide +kernel

/-- With the gateway right below it, the broadcast address is returned. -/
theorem broadcast_returned :
    ¬ ∀ ipv6 inspected override network gateway,
      discover ipv6 inspected = .ok (network, gateway) →
      (∀ text, agentAddress ipv6 inspected override = .ok text →
          ∃ a, text = a.text ∧ Usable network gateway a) ∧
        ((¬ ∃ a, Usable network gateway a) →
          ∃ e, agentAddress ipv6 inspected override = .error e) := by
  intro hall
  have hfound : discover .absent (.ok (printedNetwork "10.89.0.0/24" "10.89.0.254")) =
      .ok (kindNetwork, .v4 ⟨10, 89, 0, 254⟩) := by
    decide +kernel
  have hreturned : agentAddress .absent (.ok (printedNetwork "10.89.0.0/24" "10.89.0.254")) none =
      .ok kindNetwork.broadcast.text := by
    decide +kernel
  obtain ⟨a, htext, ha⟩ := (hall _ _ none _ _ hfound).1 _ hreturned
  exact ha.ne_broadcast (IPv4.text_injective htext.symm)

end HostAgent

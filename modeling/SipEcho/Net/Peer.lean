import SipEcho.Common.Libc
import SipEcho.Map.Delete

/-!
The address of a peer, from `sip_ip_address_and_port_set` over `mem_new` to `sendto`.

An object is the list of its bytes, and a copy that leaves it is a crash.  Both the address
`sip_send` keeps on its stack and the one in a chunk are a `struct sockaddr`, of 16 bytes; a
`struct sockaddr_in6` has 28.  `getaddrinfo` and `inet_pton` are parameters.

* `Peer.Denotes`: what `sendto` is given is a host and a port;
* `peer_fits_iff`: no copy leaves its object, and the chunk has the address of the host, exactly
  when the host is an IPv4 literal and the port a port, or `getaddrinfo` refuses the host.
-/

namespace SipEcho

/-- `sa_family_t`, of the two families in use. -/
inductive SaFamily where
  | inet | inet6
  deriving DecidableEq, Repr

namespace SaFamily

/-- `AF_INET` and `AF_INET6`, as they stand in memory. -/
def bytes : SaFamily → Str
  | inet => [2, 0]
  | inet6 => [10, 0]

/-- The size of the family's own structure. -/
def size : SaFamily → ℕ
  | inet => 16
  | inet6 => 28

/-- Where the address stands in it. -/
def offset : SaFamily → ℕ
  | inet => 4
  | inet6 => 8

/-- The size of an address. -/
def width : SaFamily → ℕ
  | inet => 4
  | inet6 => 16

end SaFamily

/-- `getaddrinfo`, as far as the family of its first result, and `inet_pton`, the bytes of an
address: as many as the family has.  `getaddrinfo` finds no other family for what is written so; it
may refuse it, as on a host without IPv6. -/
structure Resolver where
  getaddrinfo : Str → Option SaFamily
  inetPton : SaFamily → Str → Option Str
  width : ∀ f ip a, inetPton f ip = some a → a.length = f.width
  literal : ∀ f ip a g, inetPton f ip = some a → getaddrinfo ip = some g → g = f

/-- What is written as an address is refused, or its family is found. -/
lemma Resolver.getaddrinfo_cases (r : Resolver) {f : SaFamily} {ip a : Str}
    (h : r.inetPton f ip = some a) : r.getaddrinfo ip = none ∨ r.getaddrinfo ip = some f := by
  cases hg : r.getaddrinfo ip with
  | none => exact Or.inl rfl
  | some g => exact Or.inr (by rw [r.literal f ip a g h hg])

/-- `dns_is_resolved`. -/
def dnsIsResolved (r : Resolver) (host : Str) : Bool :=
  (r.inetPton .inet host).isSome || (r.inetPton .inet6 host).isSome

/-- Bytes are written into an object. -/
def writeAt (object : Str) (off : ℕ) (bytes : Str) : Except Fault Str :=
  if off + bytes.length ≤ object.length then
    .ok (object.take off ++ bytes ++ object.drop (off + bytes.length))
  else .error .crash

/-- `sizeof(struct sockaddr)`. -/
def sockaddrSize : ℕ := 16

/-- `htons`. -/
def htons (port : ℤ) : Str := [(u16 port / 256).toUInt8, (u16 port % 256).toUInt8]

/-- `ntohs` of two bytes. -/
def ntohs (bytes : Str) : ℕ := bytes.foldl (fun n b => 256 * n + b.toNat) 0

/-- `sip_ip_address_and_port_set`: the length, `none` for `-1`, and the address. -/
def sipIpAddressAndPortSet (r : Resolver) (a : Str) (ip : Str) (port : ℤ) :
    Except Fault (Option ℕ × Str) :=
  match r.getaddrinfo ip with
  | none => .ok (none, a)
  | some family => do
      let a ← writeAt a 0 family.bytes
      let a ← writeAt a 2 (htons port)
      match r.inetPton family ip with
      | some address => do return (some family.size, ← writeAt a family.offset address)
      | none => return (none, a)

/-- The peer of a chunk: its address object and the length. -/
structure Peer where
  a : Str
  l : ℕ
  deriving DecidableEq, Repr

/-- The `memcpy` of `mem_new`, into the address of a new chunk: `l` bytes of `a`. -/
def memNewPeer (a : Str) (l : ℕ) : Except Fault Peer := do
  let a ← if l ≤ a.length then pure (a.take l) else throw .crash
  return ⟨← writeAt (List.replicate sockaddrSize 0) 0 a, if l ≠ 0 then l else sockaddrSize⟩

/-- A chunk with its peer. -/
structure PeerChunk where
  buffer : Str
  peer : Peer
  deriving DecidableEq, Repr

/-- `sip_send`: the result, and the chunk that is queued.  `event` says whether the transaction
has an event, `message` is what `osip_message_to_str` makes, `memory` says whether there is memory
for a chunk. -/
def sipSend (r : Resolver) (event : Bool) (message : Option Str) (memory : Bool) (host : Str)
    (port : ℤ) : Except Fault (ℤ × Option PeerChunk) :=
  if event = false then return (-1, none)
  else
    match message with
    | none => return (-1, none)
    | some message => do
        let (l, sa) ← sipIpAddressAndPortSet r (List.replicate sockaddrSize 0) host port
        match l with
        | none => return (-1, none)
        | some l =>
            -- `mem_new` makes nothing of a length that is `0` as an `unsigned short`
            if u16 message.length = 0 ∨ memory = false then return (-1, none)
            else do
              let peer ← memNewPeer sa l
              return (0, some ⟨message, peer⟩)

/-- **What `sendto` is given is the host and the port**: as many bytes as the structure of the
family has, all inside the object, with the family, the port and the address of the host. -/
def Peer.Denotes (r : Resolver) (p : Peer) (host : Str) (port : ℤ) : Prop :=
  ∃ family address, r.inetPton family host = some address ∧
    p.l = family.size ∧ p.l ≤ p.a.length ∧ p.a.take 2 = family.bytes ∧
    ntohs ((p.a.drop 2).take 2) = port ∧ (p.a.drop family.offset).take family.width = address

/-- Whatever is sent to the host and the port, no copy leaves its object, and a chunk that is
queued has their address. -/
def PeerFits (r : Resolver) (host : Str) (port : ℤ) : Prop :=
  ∀ (event : Bool) (message : Option Str) (memory : Bool),
    ∃ res, sipSend r event message memory host port = .ok res ∧
      ∀ c, res.2 = some c → c.peer.Denotes r host port

section Copies

variable {r : Resolver} {host : Str} {port : ℤ}

/-- A host that is refused. -/
lemma sipSend_refused (h : r.getaddrinfo host = none) (event : Bool) (message : Option Str)
    (memory : Bool) : sipSend r event message memory host port = .ok (-1, none) := by
  cases event with
  | false => cases message <;> rfl
  | true =>
      cases message with
      | none => rfl
      | some message =>
          rw [sipSend, if_neg (by simp)]
          dsimp only
          rw [sipIpAddressAndPortSet, h]
          rfl

lemma htons_length (port : ℤ) : (htons port).length = 2 := rfl

/-- The port arrives when it is one. -/
lemma ntohs_htons : (ntohs (htons port) : ℤ) = port ↔ 0 ≤ port ∧ port < 65536 := by
  have hlt := u16_lt port
  have heq : ntohs (htons port) = u16 port := by
    have h1 : (u16 port / 256).toUInt8.toNat = u16 port / 256 := by
      rw [Nat.toUInt8_eq, UInt8.toNat_ofNat']
      omega
    have h2 : (u16 port % 256).toUInt8.toNat = u16 port % 256 := by
      rw [Nat.toUInt8_eq, UInt8.toNat_ofNat']
      omega
    simp only [ntohs, htons, List.foldl_cons, List.foldl_nil, h1, h2]
    omega
  rw [heq]
  constructor
  · intro h
    omega
  · rintro ⟨h0, h1⟩
    exact u16_of_lt h0 h1

/-- An IPv4 address fits. -/
lemma sipIpAddressAndPortSet_inet {address : Str} (h : r.inetPton .inet host = some address)
    (hg : r.getaddrinfo host = some .inet) :
    sipIpAddressAndPortSet r (List.replicate sockaddrSize 0) host port =
      .ok (some 16, [2, 0] ++ htons port ++ address ++ List.replicate 8 0) := by
  have hwidth := r.width _ _ _ h
  obtain ⟨a, b, c, d, rfl⟩ : ∃ a b c d, address = [a, b, c, d] := by
    match address, hwidth with
    | [a, b, c, d], _ => exact ⟨a, b, c, d, rfl⟩
  rw [sipIpAddressAndPortSet, hg]
  dsimp only
  rw [h]
  rfl

/-- An IPv6 address does not: its bytes end 8 behind the object. -/
lemma sipIpAddressAndPortSet_inet6 {address : Str} (h : r.inetPton .inet6 host = some address)
    (hg : r.getaddrinfo host = some .inet6) :
    sipIpAddressAndPortSet r (List.replicate sockaddrSize 0) host port = .error .crash := by
  have hwidth := r.width _ _ _ h
  have hlong (object : Str) (hobject : object.length = 16) :
      writeAt object SaFamily.inet6.offset address = .error .crash := by
    rw [writeAt, if_neg]
    rw [hwidth, hobject]
    decide
  rw [sipIpAddressAndPortSet, hg]
  dsimp only
  rw [h]
  show (writeAt ([10, 0] ++ htons port ++ List.replicate 12 0) SaFamily.inet6.offset address >>=
    fun a => _) = _
  rw [hlong _ rfl]
  rfl

/-- A `struct sockaddr` is copied as it is. -/
lemma memNewPeer_inet {a : Str} (h : a.length = 16) : memNewPeer a 16 = .ok ⟨a, 16⟩ := by
  have hcopy : writeAt (List.replicate sockaddrSize 0) 0 a = .ok a := by
    rw [writeAt, if_pos (by rw [h]; decide), h]
    simp [sockaddrSize]
  rw [memNewPeer, if_pos h.ge, List.take_of_length_le h.le]
  show (writeAt _ 0 a >>= fun a => _) = _
  rw [hcopy]
  rfl

/-- The chunk for an IPv4 address denotes the host, and the port when it is one. -/
lemma denotes_inet {address : Str} (h : r.inetPton .inet host = some address) :
    Peer.Denotes r ⟨[2, 0] ++ htons port ++ address ++ List.replicate 8 0, 16⟩ host port ↔
      0 ≤ port ∧ port < 65536 := by
  have hwidth := r.width _ _ _ h
  have hport : (([2, 0] ++ htons port ++ address ++ List.replicate 8 0).drop 2).take 2 =
      htons port := rfl
  have haddress : (([2, 0] ++ htons port ++ address ++ List.replicate 8 0).drop 4).take 4 =
      address := by
    show (address ++ List.replicate 8 0).take 4 = address
    have hfour : address.length = 4 := hwidth
    rw [List.take_append_of_le_length hfour.ge, List.take_of_length_le hfour.le]
  constructor
  · rintro ⟨family, address', -, -, -, -, hp, -⟩
    rw [hport] at hp
    exact ntohs_htons.mp hp
  · intro hp
    refine ⟨.inet, address, h, rfl, ?_, rfl, ?_, haddress⟩
    · simp only [List.length_append, htons_length, hwidth]
      decide
    · rw [hport]
      exact ntohs_htons.mpr hp

/-- `sip_send` to an IPv4 address returns, and the chunk has the copy. -/
lemma sipSend_inet {address : Str} (h : r.inetPton .inet host = some address)
    (hg : r.getaddrinfo host = some .inet) (message : Str) (memory : Bool) :
    sipSend r true (some message) memory host port =
      .ok (if u16 message.length = 0 ∨ memory = false then (-1, none)
        else (0, some ⟨message,
          ⟨[2, 0] ++ htons port ++ address ++ List.replicate 8 0, 16⟩⟩)) := by
  have hlen : ([2, 0] ++ htons port ++ address ++ List.replicate 8 0 : Str).length = 16 := by
    simp only [List.length_append, htons_length, r.width _ _ _ h]
    rfl
  rw [sipSend, if_neg (by simp)]
  dsimp only
  rw [sipIpAddressAndPortSet_inet h hg]
  show (if _ then _ else memNewPeer _ 16 >>= fun peer => _) = _
  rw [memNewPeer_inet hlen]
  split <;> rfl

/-- `sip_send` to an IPv6 address crashes. -/
lemma sipSend_inet6 {address : Str} (h : r.inetPton .inet6 host = some address)
    (hg : r.getaddrinfo host = some .inet6) (message : Str) (memory : Bool) :
    sipSend r true (some message) memory host port = .error .crash := by
  rw [sipSend, if_neg (by simp)]
  dsimp only
  rw [sipIpAddressAndPortSet_inet6 h hg]
  rfl

/-- **Peer addresses fit** for the IPv4 literals, and for no other host a lookup accepts and
`getaddrinfo` does not refuse. -/
theorem peer_fits_iff (r : Resolver) {host : Str} (hhost : dnsIsResolved r host = true)
    (port : ℤ) :
    PeerFits r host port ↔ r.getaddrinfo host = none ∨
      ((r.inetPton .inet host).isSome ∧ 0 ≤ port ∧ port < 65536) := by
  by_cases hnone : r.getaddrinfo host = none
  · refine iff_of_true (fun event message memory => ?_) (Or.inl hnone)
    exact ⟨_, sipSend_refused hnone event message memory, by simp⟩
  rw [or_iff_right hnone]
  cases h4 : r.inetPton .inet host with
  | some address =>
      have hg := (r.getaddrinfo_cases h4).resolve_left hnone
      rw [Option.isSome_some, eq_self_iff_true, true_and]
      refine ⟨fun h => ?_, fun hp event message memory => ?_⟩
      · obtain ⟨res, hres, hdenotes⟩ := h true (some [0]) true
        rw [sipSend_inet h4 hg] at hres
        obtain rfl := Except.ok.inj hres
        exact (denotes_inet h4).mp (hdenotes _ rfl)
      · match event, message with
        | false, _ => exact ⟨_, rfl, by simp⟩
        | true, none => exact ⟨_, rfl, by simp⟩
        | true, some message =>
            refine ⟨_, sipSend_inet h4 hg message memory, fun c hc => ?_⟩
            split at hc
            · exact absurd hc (by simp)
            · rw [← Option.some.inj hc]
              exact (denotes_inet h4).mpr hp
  | none =>
      have h6 : (r.inetPton .inet6 host).isSome := by simpa [dnsIsResolved, h4] using hhost
      obtain ⟨address, h6⟩ := Option.isSome_iff_exists.mp h6
      have hg := (r.getaddrinfo_cases h6).resolve_left hnone
      refine iff_of_false (fun h => ?_) (by simp)
      obtain ⟨res, hres, -⟩ := h true (some [0]) true
      rw [sipSend_inet6 h6 hg] at hres
      exact absurd hres (by simp)

end Copies

section Example

/-- The two loopback addresses. -/
def loopback : Resolver where
  getaddrinfo ip :=
    if ip = str "127.0.0.1" then some .inet else if ip = str "::1" then some .inet6 else none
  inetPton family ip :=
    match family with
    | .inet => if ip = str "127.0.0.1" then some [127, 0, 0, 1] else none
    | .inet6 => if ip = str "::1" then some (List.replicate 15 0 ++ [1]) else none
  width f ip a h := by
    cases f <;> (dsimp only at h; split at h; (· rw [← Option.some.inj h]; rfl); (· cases h))
  literal f ip a g h hg := by
    cases f
    · dsimp only at h
      split at h
      · rename_i hip
        rw [if_pos hip] at hg
        exact (Option.some.inj hg).symm
      · cases h
    · dsimp only at h
      split at h
      · rename_i hip
        rw [hip] at hg
        exact (Option.some.inj hg).symm
      · cases h

/-- A request to `127.0.0.1:5060` goes where it should. -/
theorem peer_fits_loopback : dnsIsResolved loopback (str "127.0.0.1") = true ∧
    PeerFits loopback (str "127.0.0.1") 5060 :=
  ⟨by decide, (peer_fits_iff loopback (by decide) 5060).mpr
    (Or.inr ⟨by decide, by decide, by decide⟩)⟩

/-- **A request to `::1` overruns the address.** -/
theorem ipv6_overruns : dnsIsResolved loopback (str "::1") = true ∧
    sipSend loopback true (some (str "OPTIONS")) true (str "::1") 5060 = .error .crash ∧
    ¬ PeerFits loopback (str "::1") 5060 := by
  have hcrash : sipSend loopback true (some (str "OPTIONS")) true (str "::1") 5060 =
      .error .crash := by decide
  refine ⟨by decide, hcrash, fun h => ?_⟩
  obtain ⟨res, hres, -⟩ := h true (some (str "OPTIONS")) true
  rw [hcrash] at hres
  exact absurd hres (by simp)

end Example

end SipEcho

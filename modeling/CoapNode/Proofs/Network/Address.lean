import CoapNode.Endpoint.Basic

set_option autoImplicit false

/-! # Addresses and endpoints

The endpoint of a sender holds the address and the port that a datagram came from, but neither flow
nor scope, and it holds an IPv4 address in mapped form. So what is sent back goes to the canonical
form of the address (`SocketAddress.socketAddress_ofAddress`), which is the address itself unless
that has a flow or a scope or is a mapped one (`SocketAddress.canonical_eq_self_iff`).

In the other direction nothing is lost: an endpoint is made up of its socket address and its
security (`Endpoint.socketAddress_identifies`). Both directions rest on the mapped form of IPv4
addresses, which `IPv6.unmapped?_eq_some_iff` describes over all addresses.
-/

namespace CoapNode

/-! ## Octets and groups -/

@[simp] theorem highOctet_groupOf (hi lo : UInt8) : highOctet (groupOf hi lo) = hi := by
  have hhi := hi.toNat_lt
  have hlo := lo.toNat_lt
  apply UInt8.toNat_inj.1
  simp only [highOctet, groupOf, UInt16.toNat_toUInt8, UInt16.toNat_div, UInt16.toNat_add,
    UInt16.toNat_mul, UInt8.toNat_toUInt16, UInt16.reduceToNat]
  omega

@[simp] theorem lowOctet_groupOf (hi lo : UInt8) : lowOctet (groupOf hi lo) = lo := by
  have hhi := hi.toNat_lt
  have hlo := lo.toNat_lt
  apply UInt8.toNat_inj.1
  simp only [lowOctet, groupOf, UInt16.toNat_toUInt8, UInt16.toNat_mod, UInt16.toNat_add,
    UInt16.toNat_mul, UInt8.toNat_toUInt16, UInt16.reduceToNat]
  omega

/-- The two octets of a group make up the group. -/
@[simp] theorem groupOf_octets (g : UInt16) : groupOf (highOctet g) (lowOctet g) = g := by
  have hlt := g.toNat_lt
  apply UInt16.toNat_inj.1
  simp only [highOctet, lowOctet, groupOf, UInt16.toNat_toUInt8, UInt16.toNat_div, UInt16.toNat_add,
    UInt16.toNat_mul, UInt8.toNat_toUInt16, UInt16.reduceToNat, UInt16.toNat_mod]
  omega

/-! ## Mapped addresses -/

/-- Mapping an IPv4 address loses nothing. -/
@[simp] theorem IPv4.unmapped?_mapped (ip : IPv4) : ip.mapped.unmapped? = some ip := by
  have hmapped : ip.mapped.isMapped = true := rfl
  have htail : ip.mapped.tail4 = ip := by simp [IPv6.tail4, mapped]
  rw [IPv6.unmapped?, if_pos hmapped, htail]

/-- A mapped address is the mapped form of the IPv4 address at its end. -/
theorem IPv6.mapped_tail4 {ip : IPv6} (h : ip.isMapped = true) : ip.tail4.mapped = ip := by
  obtain ⟨g0, g1, g2, g3, g4, g5, g6, g7⟩ := ip
  simp only [isMapped, Bool.and_eq_true, beq_iff_eq] at h
  obtain ⟨⟨⟨⟨⟨rfl, rfl⟩, rfl⟩, rfl⟩, rfl⟩, rfl⟩ := h
  simp only [tail4, IPv4.mapped, groupOf_octets]

/-- **Unmapping undoes mapping**, and nothing but mapped forms can be unmapped. -/
theorem IPv6.unmapped?_eq_some_iff {ip : IPv6} {ip4 : IPv4} :
    ip.unmapped? = some ip4 ↔ ip = ip4.mapped := by
  constructor
  · intro h
    rw [unmapped?, Option.ite_none_right_eq_some] at h
    obtain ⟨hmapped, htail⟩ := h
    rw [← Option.some.inj htail, mapped_tail4 hmapped]
  · rintro rfl
    exact ip4.unmapped?_mapped

/-- The mapped addresses are those that begin with five groups of zeros and one of ones. -/
theorem IPv6.exists_eq_mapped_iff {ip : IPv6} :
    (∃ ip4 : IPv4, ip = ip4.mapped) ↔ ip.toList.take 6 = [0, 0, 0, 0, 0, 0xFFFF] := by
  constructor
  · rintro ⟨ip4, rfl⟩
    rfl
  · intro h
    have hmapped : ip.isMapped = true := by simpa [toList, isMapped, and_assoc] using h
    exact ⟨ip.tail4, (mapped_tail4 hmapped).symm⟩

/-! ## The way back -/

namespace SocketAddress

/-- **The form in which an address is sent to**: without flow and scope, and as an IPv4 address if it
is the mapped form of one. -/
def canonical : SocketAddress → SocketAddress
  | .v4 ip port => .v4 ip port
  | .v6 ip port _ _ =>
    match ip.unmapped? with
    | some ip => .v4 ip port
    | none => .v6 ip port 0 0

/-- What is sent to the endpoint of a sender goes to the canonical form of its address. -/
theorem socketAddress_ofAddress (address : SocketAddress) (secure : Bool) :
    (Endpoint.ofAddress address secure).socketAddress = address.canonical := by
  cases address with
  | v4 ip port =>
      have haddr : (Endpoint.ofAddress (.v4 ip port) secure).addr = ip.mapped := rfl
      rw [Endpoint.socketAddress, haddr, IPv4.unmapped?_mapped]
      rfl
  | v6 ip port flow scope => rfl

/-- An address is canonical unless it has a flow or a scope or is a mapped one. -/
theorem canonical_eq_self_iff {address : SocketAddress} :
    address.canonical = address
      ↔ ∀ ip port flow scope, address = .v6 ip port flow scope →
          ip.isMapped = false ∧ flow = 0 ∧ scope = 0 := by
  cases address with
  | v4 ip port => exact iff_of_true rfl nofun
  | v6 ip port flow scope =>
      rw [canonical, IPv6.unmapped?]
      cases hmapped : ip.isMapped with
      | true =>
          refine iff_of_false nofun fun h => ?_
          rw [(h ip port flow scope rfl).1] at hmapped
          cases hmapped
      | false =>
          constructor
          · rintro h _ _ _ _ ⟨⟩
            obtain ⟨-, -, hflow, hscope⟩ := SocketAddress.v6.inj h
            exact ⟨hmapped, hflow.symm, hscope.symm⟩
          · intro h
            obtain ⟨-, hflow, hscope⟩ := h ip port flow scope rfl
            rw [hflow, hscope]
            rfl

end SocketAddress

/-! ## The way there -/

namespace Endpoint

/-- What is sent to an endpoint goes to an IPv4 address if the endpoint holds the mapped form of
that address. -/
theorem socketAddress_eq_v4_iff {peer : Endpoint} {ip : IPv4} {port : UInt16} :
    peer.socketAddress = .v4 ip port ↔ peer.addr = ip.mapped ∧ peer.port = port := by
  rw [socketAddress, ← IPv6.unmapped?_eq_some_iff]
  cases peer.addr.unmapped? with
  | none => simp
  | some ip4 => simp

/-- An endpoint is the endpoint of a sender at its own socket address. -/
theorem ofAddress_socketAddress (peer : Endpoint) :
    ofAddress peer.socketAddress peer.secure = peer := by
  obtain ⟨addr, port, secure⟩ := peer
  rw [socketAddress]
  cases hunmapped : addr.unmapped? with
  | none => rfl
  | some ip =>
      obtain rfl := IPv6.unmapped?_eq_some_iff.1 hunmapped
      rfl

/-! ## Main result -/

/-- **Socket addresses identify endpoints.** The endpoint of a sender at the socket address of an
endpoint, with the same security, is that endpoint. So two endpoints are equal exactly if their
securities and their socket addresses are. The socket address of an endpoint is an IPv4 address
exactly if the address of the endpoint begins with five groups of zeros and one of ones, and it is
then the IPv4 address that this one is the mapped form of, at the same port. Whoever speaks from an
IPv4 address is sent to at the same address. -/
theorem socketAddress_identifies :
    (∀ peer : Endpoint, ofAddress peer.socketAddress peer.secure = peer)
      ∧ (∀ peer peer' : Endpoint,
          peer.secure = peer'.secure ∧ peer.socketAddress = peer'.socketAddress ↔ peer = peer')
      ∧ (∀ peer : Endpoint, (∃ ip port, peer.socketAddress = .v4 ip port)
          ↔ peer.addr.toList.take 6 = [0, 0, 0, 0, 0, 0xFFFF])
      ∧ (∀ (peer : Endpoint) ip port,
          peer.socketAddress = .v4 ip port ↔ peer.addr = ip.mapped ∧ peer.port = port)
      ∧ ∀ ip port secure, (ofAddress (.v4 ip port) secure).socketAddress = .v4 ip port := by
  refine ⟨ofAddress_socketAddress, fun peer peer' => ⟨?_, ?_⟩, fun peer => ⟨?_, ?_⟩,
    fun peer ip port => socketAddress_eq_v4_iff,
    fun ip port secure => SocketAddress.socketAddress_ofAddress _ secure⟩
  · rintro ⟨hsecure, haddress⟩
    rw [← ofAddress_socketAddress peer, hsecure, haddress, ofAddress_socketAddress]
  · rintro rfl
    exact ⟨rfl, rfl⟩
  · rintro ⟨ip, port, haddress⟩
    exact IPv6.exists_eq_mapped_iff.1 ⟨ip, (socketAddress_eq_v4_iff.1 haddress).1⟩
  · intro hmapped
    obtain ⟨ip, haddr⟩ := IPv6.exists_eq_mapped_iff.2 hmapped
    exact ⟨ip, peer.port, socketAddress_eq_v4_iff.2 ⟨haddr, rfl⟩⟩

end Endpoint

end CoapNode

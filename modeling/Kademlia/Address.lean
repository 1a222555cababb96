import Kademlia.NodeId

namespace Kademlia

/-!
Addresses on the network, destinations of datagrams, and contacts: what one has to know of a node in
order to reach it.  The addresses of sockets tell more than that.
-/

/-- The two families of addresses. -/
inductive Family where
  | v4
  | v6
deriving DecidableEq, Repr

/-- The address of a host. -/
inductive Ip where
  | v4 (word : BitVec 32)
  | v6 (word : BitVec 128)
deriving DecidableEq, Repr

namespace Ip

def family : Ip → Family
  | v4 _ => .v4
  | v6 _ => .v6

/-- The octets of a host address: four or sixteen. -/
def octets : Ip → Bytes
  | v4 word => BigEndian.encode 4 word.toNat
  | v6 word => BigEndian.encode 16 word.toNat

/-- The host address with the given octets, of which there must be four or sixteen.  Sixteen
octets are of the second family, whatever they contain. -/
def ofOctets? (octets : Bytes) : Option Ip :=
  if octets.length = 4 then some (v4 (BitVec.ofNat 32 (BigEndian.decode octets)))
  else if octets.length = 16 then some (v6 (BitVec.ofNat 128 (BigEndian.decode octets)))
  else none

/-- The first family comes before the second; within one, addresses compare as numbers. -/
instance : Ord Ip where
  compare
    | v4 a, v4 b => compare a.toNat b.toNat
    | v4 _, v6 _ => .lt
    | v6 _, v4 _ => .gt
    | v6 a, v6 b => compare a.toNat b.toNat

/-- The octets of a host address give it back. -/
@[simp]
theorem ofOctets?_octets (ip : Ip) : ofOctets? ip.octets = some ip := by
  cases ip with
  | v4 word =>
    have bound : word.toNat < BigEndian.capacity 4 := word.isLt
    have same : BitVec.ofNat 32 (BigEndian.decode (v4 word).octets) = word := by
      rw [octets, BigEndian.decode_encode, Nat.mod_eq_of_lt bound, BitVec.ofNat_toNat,
        BitVec.setWidth_eq]
    have length : (v4 word).octets.length = 4 := BigEndian.length_encode 4 word.toNat
    rw [ofOctets?, if_pos length, same]
  | v6 word =>
    have bound : word.toNat < BigEndian.capacity 16 := word.isLt
    have same : BitVec.ofNat 128 (BigEndian.decode (v6 word).octets) = word := by
      rw [octets, BigEndian.decode_encode, Nat.mod_eq_of_lt bound, BitVec.ofNat_toNat,
        BitVec.setWidth_eq]
    have length : (v6 word).octets.length = 16 := BigEndian.length_encode 16 word.toNat
    rw [ofOctets?, if_neg (by rw [length]; decide), if_pos length, same]

end Ip

/-- A host and a port on it. -/
structure Address where
  ip : Ip
  port : UInt16
deriving DecidableEq, Repr

namespace Address

def family (a : Address) : Family :=
  a.ip.family

/-- Addresses compare by host and then by port. -/
instance : Ord Address where
  compare a b := (compare a.ip b.ip).then (compare a.port b.port)

end Address

/-- Where a datagram is sent: an address, and the number of the link to reach it by, or zero if any
link will do. -/
structure Destination where
  address : Address
  link : UInt32 := 0
deriving DecidableEq, Repr

namespace Destination

/-- The destination that any link will do for. -/
def ofAddress (address : Address) : Destination :=
  ⟨address, 0⟩

instance : Coe Address Destination := ⟨ofAddress⟩

def family (d : Destination) : Family :=
  d.address.family

/-- Destinations compare by address and then by link. -/
instance : Ord Destination where
  compare a b := (compare a.address b.address).then (compare a.link b.link)

end Destination

/-- A node that can be reached: its identifier and its address. -/
structure Contact where
  id : NodeId
  address : Address
deriving DecidableEq, Repr

namespace Contact

def family (c : Contact) : Family :=
  c.address.family

end Contact

/-- The address of a socket.  In the second family it has more than a host and a port: a label for
the flow that a datagram belongs to, and the number of the link to reach the host by. -/
inductive SocketAddress where
  | v4 (host : BitVec 32) (port : UInt16)
  | v6 (host : BitVec 128) (port : UInt16) (flow link : UInt32)
deriving DecidableEq, Repr

namespace SocketAddress

/-- The host and the port of a socket. -/
def address : SocketAddress → Address
  | v4 host port => ⟨.v4 host, port⟩
  | v6 host port _ _ => ⟨.v6 host, port⟩

/-- The socket of a host and a port, with neither flow nor link. -/
def ofAddress : Address → SocketAddress
  | ⟨.v4 host, port⟩ => v4 host port
  | ⟨.v6 host, port⟩ => v6 host port 0 0

def family (s : SocketAddress) : Family :=
  s.address.family

end SocketAddress

/-- A node that can be reached at a socket. -/
structure Handle where
  id : NodeId
  socket : SocketAddress
deriving DecidableEq, Repr

namespace Handle

/-- What the host and the port of its socket make of a node. -/
def contact (h : Handle) : Contact :=
  ⟨h.id, h.socket.address⟩

/-- A contact as a node at the socket of its host and port. -/
def ofContact (c : Contact) : Handle :=
  ⟨c.id, .ofAddress c.address⟩

def family (h : Handle) : Family :=
  h.socket.family

end Handle
end Kademlia

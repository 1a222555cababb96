import Kademlia.Address
import Kademlia.Time

namespace Kademlia

/-!
The peers that other nodes announced, by key.  A peer lives for a limited time after its last
announcement; dead peers may linger until they are swept out, but are never listed.
-/

/-- A peer and when it was announced last. -/
structure AnnouncedPeer where
  address : Address
  announcedAt : Instant
deriving DecidableEq, Repr

/-- What becomes of an announcement. -/
inductive AddOutcome where
  /-- The peer was not stored before. -/
  | inserted
  /-- The peer was stored already, and its time starts again. -/
  | refreshed
  /-- There is no room for another peer, under this key or under all together. -/
  | full
deriving DecidableEq, Repr

/-- The announced peers and the limits on their number and age. -/
structure PeerStore where
  maxPerHash : Nat
  maxTotal : Nat
  lifetime : Duration
  /-- The peers of each key in order of their first announcement; every key occurs once. -/
  peers : List (InfoHash × List AnnouncedPeer) := []
  /-- How many peers are stored under all keys together. -/
  count : Nat := 0
deriving Repr

namespace PeerStore

/-- Whether a peer may still be listed. -/
def isLive (store : PeerStore) (now : Instant) (peer : AnnouncedPeer) : Bool :=
  now - peer.announcedAt < store.lifetime

/-- What is stored under a key, dead peers included. -/
def get? (store : PeerStore) (hash : InfoHash) : Option (List AnnouncedPeer) :=
  (store.peers.find? (·.1 = hash)).map (·.2)

/-- Replaces what is stored under a key, or adds the key. -/
def put (store : PeerStore) (hash : InfoHash) (list : List AnnouncedPeer) : PeerStore :=
  if store.peers.any (·.1 = hash) then
    { store with
      peers := store.peers.map fun entry => if entry.1 = hash then (hash, list) else entry }
  else { store with peers := store.peers ++ [(hash, list)] }

/-- Removes the dead peers of one key, which keeps its place. -/
def sweepKey (store : PeerStore) (now : Instant) (hash : InfoHash) : PeerStore :=
  match store.get? hash with
  | none => store
  | some list =>
    let live := list.filter (store.isLive now)
    { store.put hash live with count := store.count - (list.length - live.length) }

/-- Removes all dead peers, and the keys that are left without any.  Also tells how many peers were
removed. -/
def expire (store : PeerStore) (now : Instant) : Nat × PeerStore :=
  let swept := store.peers.map fun (hash, list) => (hash, list.filter (store.isLive now))
  let removed := (store.peers.flatMap (·.2)).countP fun peer => !store.isLive now peer
  (removed,
    { store with
      peers := swept.filter fun (_, list) => !list.isEmpty
      count := store.count - removed })

/-- Starts the time of a stored peer again, at the place where it stands. -/
def renew (list : List AnnouncedPeer) (now : Instant) (address : Address) : List AnnouncedPeer :=
  match list with
  | [] => []
  | peer :: rest =>
    if peer.address = address then { peer with announcedAt := now } :: rest
    else peer :: renew rest now address

/-- Puts a new peer behind those of its key, whatever the limits. -/
def push (store : PeerStore) (now : Instant) (hash : InfoHash) (address : Address) : PeerStore :=
  { store.put hash ((store.get? hash).getD [] ++ [⟨address, now⟩]) with count := store.count + 1 }

/-- Adds a peer that its key has room for, if there is room in the whole store as well.  A store
that seems full is swept first. -/
def addWithinTotal (store : PeerStore) (now : Instant) (hash : InfoHash) (address : Address) :
    AddOutcome × PeerStore :=
  let store := if store.maxTotal ≤ store.count then (store.expire now).2 else store
  if store.maxTotal ≤ store.count then (.full, store)
  else (.inserted, store.push now hash address)

/-- Stores a peer or starts its time again.  The dead peers of its key are removed first, so that
they do not count. -/
def add (store : PeerStore) (now : Instant) (hash : InfoHash) (address : Address) :
    AddOutcome × PeerStore :=
  let store := store.sweepKey now hash
  match store.get? hash with
  | none => store.addWithinTotal now hash address
  | some list =>
    if list.any (·.address = address) then
      (.refreshed, store.put hash (renew list now address))
    else if store.maxPerHash ≤ list.length then (.full, store)
    else store.addWithinTotal now hash address

/-- The live peers of a key. -/
def find (store : PeerStore) (now : Instant) (hash : InfoHash) : List Address :=
  (((store.get? hash).getD []).filter (store.isLive now)).map (·.address)

/-- How many keys something is stored under. -/
def size (store : PeerStore) : Nat :=
  store.peers.length

end PeerStore
end Kademlia

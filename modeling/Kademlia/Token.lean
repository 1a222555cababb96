import Kademlia.Address
import Kademlia.Crc32c
import Kademlia.Time

namespace Kademlia

/-!
Tokens that a node hands to those who ask for peers, and wants back from those who announce one.
Issued tokens are not remembered: a token is the checksum of a secret and of the host that it was
issued to.  The secret changes every ten minutes, and tokens made with the present or the previous
one are accepted, so that a token stays valid for ten to twenty minutes.
-/

/-- A token of four octets. -/
structure Token where
  word : BitVec 32
deriving DecidableEq, Repr

namespace Token

def toBytes (t : Token) : Bytes :=
  BigEndian.encode 4 t.word.toNat

/-- The token with the given octets, of which there must be four. -/
def ofBytes? (bytes : Bytes) : Option Token :=
  if bytes.length = 4 then some ⟨BitVec.ofNat 32 (BigEndian.decode bytes)⟩ else none

/-- The token of a host under a secret. -/
def ofSecret (secret : BitVec 32) (host : Ip) : Token :=
  ⟨Crc32c.append (Crc32c.checksum (BigEndian.encode 4 secret.toNat)) host.octets⟩

end Token

/-- The secrets that tokens are made with. -/
structure TokenStore where
  current : BitVec 32
  previous : BitVec 32
  refreshedAt : Instant
  secrets : Draws (BitVec 32)

namespace TokenStore

/-- How long a secret is the present one. -/
def refreshInterval : Duration := .minutes 10

/-- A store with two fresh secrets.  The previous one is drawn as well, so that a new store accepts
no token that nobody was issued. -/
def start (now : Instant) (secrets : Draws (BitVec 32)) : TokenStore :=
  let (current, secrets) := secrets.next
  let (previous, secrets) := secrets.next
  ⟨current, previous, now, secrets⟩

/-- Changes the secrets if it is time.  After one interval the present secret becomes the previous
one; after more than one, both are too old. -/
def refresh (store : TokenStore) (now : Instant) : TokenStore :=
  match (now - store.refreshedAt) / refreshInterval with
  | 0 => store
  | 1 =>
    let (current, secrets) := store.secrets.next
    ⟨current, store.current, now, secrets⟩
  | _ =>
    let (previous, secrets) := store.secrets.next
    let (current, secrets) := secrets.next
    ⟨current, previous, now, secrets⟩

/-- Issues a token to a host. -/
def checkout (store : TokenStore) (now : Instant) (host : Ip) : Token × TokenStore :=
  let store := store.refresh now
  (.ofSecret store.current host, store)

/-- Whether octets are a valid token of a host. -/
def checkin (store : TokenStore) (now : Instant) (host : Ip) (octets : Bytes) : Bool × TokenStore :=
  let store := store.refresh now
  let accepted :=
    match Token.ofBytes? octets with
    | some token =>
      token = .ofSecret store.current host ∨ token = .ofSecret store.previous host
    | none => false
  (accepted, store)

end TokenStore
end Kademlia

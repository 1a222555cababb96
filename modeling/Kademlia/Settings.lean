import Kademlia.Document
import Kademlia.Time

namespace Kademlia

/-!
The settings of a node.  Each of them has a default, so that a document only has to name what it
changes.
-/

/-- The settings of a node. -/
structure Settings where
  /-- How long the answer to a query is waited for. -/
  queryTimeout : Duration := .seconds 2
  /-- How many queries a lookup keeps in flight. -/
  lookupConcurrency : Nat := 3
  /-- How many rounds of queries a lookup plays at most. -/
  maxLookupRounds : Nat := 8
  refreshInterval : Duration := .seconds 6
  maintenanceInterval : Duration := .minutes 1
  /-- How often the key of the network is announced again. -/
  announceInterval : Duration := .minutes 15
  /-- How long a node is kept that was not heard from. -/
  nodeExpiry : Duration := .minutes 60
  /-- How long an announced peer is kept. -/
  peerLifetime : Duration := .minutes 30
  /-- How many peers are kept under one key. -/
  maxPeersPerHash : Nat := 256
  /-- How many peers are kept under all keys together. -/
  maxStoredPeers : Nat := 16 * 1024
  bootstrapRetryInterval : Duration := .seconds 10
  /-- Whether an announcement is refused whose token was not issued here. -/
  validateTokens : Bool := true
  /-- The name of the network, whose digest is the key that its peers are announced under. -/
  networkKey : Option String := none
deriving DecidableEq, Repr

namespace Settings

instance : Inhabited Settings := ⟨{}⟩

/-- How one setting is read from a document and written into one. -/
structure Field where
  name : String
  read : Settings → Document → Option Settings
  /-- Nothing is written for a setting that is absent. -/
  write : Settings → Option Document

/-- A setting that is a number of 64 bits. -/
def Field.number (name : String) (get : Settings → Nat) (set : Settings → Nat → Settings) :
    Field where
  name := name
  read settings document := (document.asNatBelow? UInt64.size).map (set settings)
  write settings := some (.ofNat (get settings))

/-- The settings in the order in which a document without names lists them. -/
def fields : List Field := [
  .number "query_timeout" queryTimeout fun s n => { s with queryTimeout := n },
  .number "lookup_concurrency" lookupConcurrency fun s n => { s with lookupConcurrency := n },
  .number "max_lookup_rounds" maxLookupRounds fun s n => { s with maxLookupRounds := n },
  .number "refresh_interval" refreshInterval fun s n => { s with refreshInterval := n },
  .number "maintenance_interval" maintenanceInterval fun s n => { s with maintenanceInterval := n },
  .number "announce_interval" announceInterval fun s n => { s with announceInterval := n },
  .number "node_expiry" nodeExpiry fun s n => { s with nodeExpiry := n },
  .number "peer_ttl" peerLifetime fun s n => { s with peerLifetime := n },
  .number "max_peers_per_hash" maxPeersPerHash fun s n => { s with maxPeersPerHash := n },
  .number "max_stored_peers" maxStoredPeers fun s n => { s with maxStoredPeers := n },
  .number "bootstrap_retry_interval" bootstrapRetryInterval
    fun s n => { s with bootstrapRetryInterval := n },
  { name := "validate_tokens"
    read := fun s document => document.asBool?.map fun b => { s with validateTokens := b }
    write := fun s => some (.bool s.validateTokens) },
  { name := "network_key"
    read := fun s document => document.asOptionalText?.map fun t => { s with networkKey := t }
    write := fun s => s.networkKey.map .text }]

/-- Takes up one named entry of a document.  A name that is no setting is passed over. -/
def readEntry (settings : Settings) (entry : String × Document) : Option Settings :=
  match fields.find? (·.name = entry.1) with
  | some field => field.read settings entry.2
  | none => some settings

/-- The settings that a document holds: by name, or in order without names.  What it does not say
has its default. -/
def ofDocument? : Document → Option Settings
  | .fields entries => entries.foldlM readEntry {}
  | .list items =>
    if items.length ≤ fields.length then
      (fields.zip items).foldlM (fun settings (field, item) => field.read settings item) {}
    else none
  | _ => none

/-- The document that names all settings. -/
def toDocument (settings : Settings) : Document :=
  .fields (fields.filterMap fun field => (field.write settings).map (field.name, ·))

end Settings
end Kademlia

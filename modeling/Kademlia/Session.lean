import Kademlia.Alarms
import Kademlia.LocalNode.Step

namespace Kademlia

/-!
An application that runs a node: it holds a handle to the node, waits for the results of calls,
listens to searches, and lets time pass.  The node and the calls take turns: each of them is woken
when something happens that it waits for, and goes on until it has to wait again.  While time
passes, their alarms ring one after another.
-/

/-- A call that has not ended. -/
structure PendingCall where
  id : CallId
  /-- When the call gives up waiting, if ever. -/
  deadline : Option Instant
  /-- Its result, once it has one. -/
  answer : Option Answer := none
deriving DecidableEq, Repr

/-- Who takes turns. -/
inductive Party where
  | node
  | call (id : CallId)
deriving DecidableEq, Repr

/-- Something that the application sees, and when. -/
structure Occurrence where
  time : Instant
  effect : Effect
deriving DecidableEq

/-- What an application sets a node up with. -/
structure Setup where
  /-- The address of the socket, if it has one. -/
  localAddress : Option Address
  /-- The identifier of the node, if it is not to be random. -/
  id : Option NodeId := none
  /-- The name of the network, which goes before the one in the settings. -/
  networkKey : Option String := none
  settings : Settings := {}
  startingNodes : List Address := []
  routers : List Router := []
  readOnly : Bool := false
  announcePort : Option UInt16 := none
  publicEndpoint : Option Address := none
  /-- The addresses that nothing gets through to. -/
  unreachable : List Address := []

/-- The random values that a session may draw. -/
structure Entropy where
  transactions : Draws TransactionId
  secrets : Draws (BitVec 32)
  ids : Draws NodeId

/-- Why an operation has no result. -/
inductive SessionError where
  | noLocalAddress
  | shutDown
deriving DecidableEq, Repr

/-- A cause in words. -/
def SessionError.message : SessionError → String
  | noLocalAddress => "no local address"
  | shutDown => "DhtHandler has shut down"

/-- An application and its node. -/
structure Session where
  node : LocalNode
  now : Instant := 0
  lookUp : String → List Destination
  unreachable : List Address
  /-- Whether the application still holds the handle. -/
  held : Bool := true
  /-- Whether the application listens to notices. -/
  listening : Bool := true
  pending : List PendingCall := []
  /-- When the node and the calls are woken if nothing happens before. -/
  alarms : Alarms Party := {}
  /-- Who has been woken, in the order in which they take their turns. -/
  awake : List Party := []
  /-- How much the node has handled in its turn. -/
  handled : Nat := 0
  callCount : Nat := 0
  streamCount : Nat := 0
  /-- The searches that the application listens to and that have not ended. -/
  streams : List StreamId := []
  /-- What the application has seen since it last looked, in order. -/
  seen : List Occurrence := []
  /-- What the node has begun to handle, if it is looking up names for it. -/
  begun : Option Event := none

namespace Session

def surroundings (s : Session) : Surroundings where
  now := s.now
  delivers _ destination := !s.unreachable.any fun address => destination = address
  lookUp := s.lookUp
  arrangement := .asSent

/-- Wakes a party, unless it is awake already. -/
def wake (s : Session) (party : Party) : Session :=
  if s.awake.contains party then s else { s with awake := s.awake ++ [party] }

/-- Notes something for the application to see. -/
def note (s : Session) (effect : Effect) : Session :=
  { s with seen := s.seen ++ [⟨s.now, effect⟩] }

/-- Passes an effect of the node on to those whom it concerns: the application, unless it has
stopped listening, or the call that waits for it. -/
def observe (s : Session) (effect : Effect) : Session :=
  match effect with
  | .sent .. => s.note effect
  | .lookingUp => s
  | .notice _ => if s.listening then s.note effect else s
  | .answered call answer =>
    let waits (p : PendingCall) : Bool := p.id = call && p.answer.isNone
    if s.pending.any waits then
      { s with pending := modifyFirst waits ({ · with answer := some answer }) s.pending }.wake
        (.call call)
    else s
  | .yielded stream _ => if s.streams.contains stream then s.note effect else s
  | .ended stream =>
    if s.streams.contains stream then
      { s.note effect with streams := s.streams.filter (· ≠ stream) }
    else s

/-- Lets the node handle an event.  If it has to look up names for that, it stops there: what it
does first can be seen, and the rest has yet to come. -/
def deliver (s : Session) (event : Event) : Session :=
  let node := s.node.step s.surroundings event
  if node.outbox.contains .lookingUp then
    (node.outbox.takeWhile (· ≠ .lookingUp)).foldl observe { s with begun := some event }
  else node.outbox.foldl observe { s with node }

/-- Whether nobody holds a handle to the node any more.  Calls hold one until they end. -/
def isAbandoned (s : Session) : Bool :=
  !s.held && s.pending.isEmpty

/-- Wakes the node if nobody holds a handle to it any more. -/
def release (s : Session) : Session :=
  if s.isAbandoned then s.wake .node else s

/-- Ends a call with its result. -/
def endCall (s : Session) (call : CallId) (answer : Answer) : Session :=
  { s.note (.answered call answer) with
    pending := s.pending.filter (·.id ≠ call), alarms := s.alarms.cancel (.call call) }.release

/-- The turn of a call: it ends if it has a result, or else if its time is up. -/
def runCall (s : Session) (call : CallId) : Session :=
  match s.pending.find? (·.id = call) with
  | none => s
  | some p =>
    match p.answer with
    | some answer => s.endCall call answer
    | none => if p.deadline.any (· ≤ s.now) then s.endCall call (.joined false) else s

/-- What the node has to do in its turn, if anything: the task that is due, or shutting down because
nobody holds a handle to it. -/
def nextEvent? (s : Session) : Option Event :=
  if !s.node.running || s.begun.isSome then none
  else if s.node.timer.nextDeadline?.any (· ≤ s.now) then some .wake
  else if s.isAbandoned then some (.command .shutDown)
  else none

/-- The alarms once the node waits, for its next task or for names. -/
def nodeAlarms (s : Session) : Alarms Party :=
  match s.node.timer.nextDeadline?.filter fun _ => s.node.running && s.begun.isNone with
  | some deadline => s.alarms.set .node deadline
  | none => s.alarms.cancel .node

/-- How much the node handles in one turn.  If there is more to do, the others go first. -/
def turnLength : Nat := 128

/-- Lets everybody who is awake take turns until all of them wait, but for no more than a number of
events. -/
def settle : Nat → Session → Session
  | 0, s => s
  | fuel + 1, s =>
    match s.awake with
    | [] => s
    | .node :: rest =>
      match s.nextEvent? with
      | some event =>
        if s.handled < turnLength then
          let s := { s with alarms := s.alarms.cancel .node, handled := s.handled + 1 }
          settle fuel (s.deliver event)
        else settle fuel { s with awake := rest ++ [.node], handled := 0 }
      | none => settle fuel { s with awake := rest, alarms := s.nodeAlarms, handled := 0 }
    | .call id :: rest => settle fuel ({ s with awake := rest }.runCall id)

/-- Lets the node go on with what it has begun, now that the names have been looked up. -/
def resume (fuel : Nat) (s : Session) : Session :=
  match s.begun with
  | none => s
  | some event =>
    let node := s.node.step s.surroundings event
    let rest := node.outbox.dropWhile (· ≠ .lookingUp)
    settle fuel ((rest.foldl observe { s with node, begun := none }).wake .node)

/-- Lets the alarms ring that are due. -/
def ring (s : Session) : Session :=
  let (woken, alarms) := s.alarms.ring s.now
  woken.foldl wake { s with alarms }

/-- Lets time pass up to a limit, but for no more than a number of stops.  No time passes before
names have been looked up. -/
def passUntil : Nat → Instant → Session → Session
  | 0, _, s => s
  | fuel + 1, limit, s =>
    if s.begun.isSome && s.now < limit then passUntil fuel limit (s.resume fuel)
    else
      match s.alarms.nextLook?.filter (· ≤ limit) with
      | some time => passUntil fuel limit (settle fuel { s with now := max s.now time }.ring)
      | none => if s.now < limit then { s with now := limit }.ring else s

/-- Starts a node and lets it begin to join.  The identifier is drawn before the secrets, and these
before the number of the first transaction. -/
def start (fuel : Nat) (setup : Setup) (entropy : Entropy) (lookUp : String → List Destination) :
    Except SessionError Session :=
  match setup.localAddress with
  | none => .error .noLocalAddress
  | some localAddress =>
    let options : Options := {
      id := setup.id.getD entropy.ids.next.1
      networkHash := (setup.networkKey.or setup.settings.networkKey).map NodeId.ofNetworkKey
      readOnly := setup.readOnly
      announcePort := setup.announcePort
      publicEndpoint := setup.publicEndpoint
      routers := setup.routers
      startingNodes := setup.startingNodes
      settings := setup.settings }
    let node := LocalNode.start options localAddress 0 entropy.secrets entropy.transactions.next.1
    let session : Session := { node, lookUp, unreachable := setup.unreachable, awake := [.node] }
    .ok (settle fuel (session.deliver (.command .startBootstrap)))

/-- Whether the application can still give commands. -/
def isOpen (s : Session) : Bool :=
  s.held && s.node.running

/-- Lets the node handle an event, after which it goes on until it has to wait. -/
def handle (fuel : Nat) (s : Session) (event : Event) : Session :=
  settle fuel (((s.resume fuel).wake .node).deliver event)

/-- Gives the node a command. -/
def command (fuel : Nat) (s : Session) (command : Command) : Session :=
  s.handle fuel (.command command)

/-- Lets a datagram arrive. -/
def receive (fuel : Nat) (s : Session) (sender : Address) (data : Bytes) : Session :=
  s.handle fuel (.datagram sender data)

/-- Lets time pass. -/
def advance (fuel : Nat) (s : Session) (duration : Duration) : Session :=
  passUntil fuel (s.now + duration) s

/-- Opens a search.  On a node that has shut down it ends at once. -/
def openStream (fuel : Nat) (s : Session) (toCommand : StreamId → Command) : Session :=
  let stream : StreamId := ⟨s.streamCount⟩
  let s := { s with streamCount := s.streamCount + 1, streams := s.streams ++ [stream] }
  if s.isOpen then s.command fuel (toCommand stream) else s.observe (.ended stream)

/-- Searches for peers under a key, and announces there if wanted. -/
def search (fuel : Nat) (s : Session) (infoHash : InfoHash) (announce : Bool) : Session :=
  s.openStream fuel fun stream => .lookup ⟨infoHash, .getPeers, announce, .peers stream⟩

/-- Joins the own network. -/
def join (fuel : Nat) (s : Session) : Session :=
  s.openStream fuel .joinNetwork

/-- Starts a call.  On a node that has shut down it has its result at once, and a call that does not
wait at all ends before the node can answer. -/
def call (fuel : Nat) (s : Session) (timeout : Option Duration) (closed : Answer)
    (toCommand : CallId → Command) : Session :=
  let id : CallId := ⟨s.callCount⟩
  let s := { s with callCount := s.callCount + 1 }
  if s.isOpen then
    let s := { s with pending := s.pending ++ [⟨id, timeout.map (s.now + ·), none⟩] }
    let waiting : Session :=
      match timeout with
      | none => s
      | some 0 => s.endCall id (.joined false)
      | some duration => { s with alarms := s.alarms.put (.call id) (s.now + duration) }
    waiting.command fuel (toCommand id)
  else s.note (.answered id closed)

/-- Looks for the nodes closest to a target. -/
def findNodes (fuel : Nat) (s : Session) (target : NodeId) : Session :=
  s.call fuel none .shutDown fun id => .lookup ⟨target, .findNode, false, .contacts id⟩

/-- Waits until the node has joined, has failed to, or the time is up. -/
def bootstrapped (fuel : Nat) (s : Session) (timeout : Option Duration) : Session :=
  s.call fuel timeout (.joined false) .awaitBootstrap

/-- Pings an address. -/
def ping (fuel : Nat) (s : Session) (address : Address) : Except SessionError Session :=
  if s.isOpen then .ok (s.command fuel (.ping address)) else .error .shutDown

/-- Reads something off a node that has not shut down. -/
def read {α : Type} (s : Session) (view : LocalNode → α) : Except SessionError α :=
  if s.isOpen then .ok (view s.node) else .error .shutDown

/-- The connection state; a node that has shut down is not connected. -/
def state (s : Session) : ConnectionState :=
  if s.isOpen then s.node.state else .disconnected

/-- Shuts the node down. -/
def shutDown (fuel : Nat) (s : Session) : Session :=
  if s.isOpen then s.command fuel .shutDown else s

/-- Lets go of the handle. -/
def drop (fuel : Nat) (s : Session) : Session :=
  settle fuel { s.resume fuel with held := false }.release

/-- Stops listening to a search. -/
def dropStream (s : Session) (stream : StreamId) : Session :=
  { s with streams := s.streams.filter (· ≠ stream) }

/-- Stops listening to notices. -/
def dropNotices (s : Session) : Session :=
  { s with listening := false }

/-- What the application has seen since it last looked. -/
def takeSeen (s : Session) : List Occurrence × Session :=
  (s.seen, { s with seen := [] })

end Session
end Kademlia

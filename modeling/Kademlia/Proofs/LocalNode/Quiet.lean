import Kademlia.Proofs.LocalNode.Views
import Kademlia.Proofs.Message.RoundTrip

namespace Kademlia

/-!
# What a node does of its own accord

Searching, announcing, joining and looking after itself, a node sends queries and tells the
application about it, and changes about everything but the peers that it stores for others.  So
neither these show any of it nor effects of other kinds (`LocalNode.Detached`), except that old peers
are removed from time to time.  In particular, it never replies (`LocalNode.detached_replies`).
-/

open Bencode (Dictionary Value)

/-- What a node does without being asked for a service: it sends queries and tells the application
what has come of them.  That a peer was found is left out, since peers that announce themselves are
reported likewise. -/
def Effect.Unasked : Effect → Prop
  | .sent _ message _ => ∃ transaction query, message = .ofBody transaction (.query query)
  | .notice told => ∀ infoHash peer, told ≠ .peerFound infoHash peer
  | _ => True

namespace LocalNode

variable {γ : Type} {view : LocalNode → γ} {env : Surroundings}

/-- A view shows nothing but the stored peers and what a node was asked for. -/
structure Detached (view : LocalNode → γ) : Prop where
  overlooks : Overlooks view Effect.Unasked
  same : ∀ {n m : LocalNode}, m.store = n.store → m.outbox = n.outbox → view m = view n

namespace Detached

variable (detached : Detached view)

include detached

theorem keep {n m k : LocalNode} (kept : view m = view n) (store : k.store = m.store)
    (outbox : k.outbox = m.outbox) : view k = view n :=
  (detached.same store outbox).trans kept

theorem notify (n : LocalNode) (notice : Notice)
    (another : ∀ infoHash peer, notice ≠ .peerFound infoHash peer) :
    view (n.notify notice) = view n :=
  detached.overlooks n (.notice notice) another

theorem setState (n : LocalNode) (state : ConnectionState) : view (n.setState state) = view n :=
  (detached.overlooks.setState (fun _ _ _ => nofun) n state).trans (detached.same rfl rfl)

theorem sendQuery (n : LocalNode) (destination : Destination) (nodeId : Option NodeId)
    (query : Query) (owner : Owner) :
    view (n.sendQuery env destination nodeId query owner).2 = view n :=
  detached.overlooks.sendQuery (fun _ _ _ _ => ⟨_, _, rfl⟩) (fun _ _ _ _ _ => detached.same rfl rfl)
    n destination nodeId query owner

/-! ## Searching -/

theorem unconcerned : Unconcerned view Effect.Unasked where
  sendQuery _ n := detached.sendQuery n
  modifyLookup _ _ _ _ := detached.same rfl rfl
  modifyAnnounce _ _ _ := detached.same rfl rfl
  completed _ _ := detached.same rfl rfl
  overlooks := detached.overlooks
  announced _ _ _ _ := nofun
  ended _ := trivial
  announces _ _ := detached.same rfl rfl

theorem indifferent : Indifferent view Effect.Unasked where
  toUnconcerned := detached.unconcerned
  lookups _ _ _ := detached.same rfl rfl
  queued _ _ := detached.same rfl rfl
  lastNetworkAnnounce _ _ := detached.same rfl rfl
  transactions _ _ := detached.same rfl rfl
  cancel _ _ := detached.same rfl rfl
  table _ _ := detached.same rfl rfl

/-- Of a response to an own query, nothing shows but the peers that it has brought. -/
theorem handleResponse
    (reported : ∀ target sink n peer, view (reportPeer target sink n peer) = view n)
    (n : LocalNode) (sender : Address) (message : Message) (response : Response)
    (t : Transaction) : view (n.handleResponse env sender message response t) = view n :=
  detached.indifferent.handleResponse (fun _ _ _ _ => nofun) reported n sender message response t

/-! ## Joining -/

theorem refreshTick (n : LocalNode) : view (n.refreshTick env) = view n := by
  unfold LocalNode.refreshTick
  dsimp only
  generalize hSent : List.foldl _ _ _ = m
  have hKept : view m = view n := by
    rw [← hSent]
    refine (foldl_keeps view (fun m pick => detached.sendQuery m ..) _ _).trans ?_
    exact detached.same rfl rfl
  exact detached.keep hKept rfl rfl

theorem answerWaiting (n : LocalNode) (success : Bool) :
    view (n.answerWaiting success) = view n :=
  (detached.overlooks.answerWaiting (fun _ _ => trivial) n success).trans (detached.same rfl rfl)

theorem bootstrapSucceeded (n : LocalNode) : view (n.bootstrapSucceeded env) = view n := by
  have hTold : view (((n.setState .connected).notify .bootstrapCompleted).answerWaiting true) =
      view n := by
    rw [detached.answerWaiting]
    exact (detached.notify _ .bootstrapCompleted fun _ _ => nofun).trans (detached.setState ..)
  unfold LocalNode.bootstrapSucceeded
  generalize ((n.setState .connected).notify .bootstrapCompleted).answerWaiting true = m at hTold ⊢
  dsimp only
  rw [detached.indifferent.startQueued, ← hTold]
  split
  · rfl
  · exact (detached.refreshTick _).trans (detached.same rfl rfl)

theorem startBootstrap (n : LocalNode) : view (n.startBootstrap env) = view n := by
  have hConnecting : view (if n.state = .connected then n else n.setState .connecting) =
      view n := by
    split
    · rfl
    · exact detached.setState n .connecting
  unfold LocalNode.startBootstrap
  split
  · rfl
  · generalize (if n.state = .connected then n else n.setState .connecting) = m at hConnecting ⊢
    rw [← hConnecting]
    dsimp only
    split
    · exact (detached.bootstrapSucceeded _).trans (detached.same rfl rfl)
    · have hLooked : view (if m.bootstrap.needsLookUp then m.emit .lookingUp else m) = view m :=
        detached.overlooks.emit_if _ m trivial
      rw [detached.indifferent.launch]
      exact detached.keep hLooked rfl rfl

theorem bootstrapLookupCompleted (n : LocalNode) :
    view (n.bootstrapLookupCompleted env) = view n := by
  unfold LocalNode.bootstrapLookupCompleted
  dsimp only
  split
  · exact (detached.bootstrapSucceeded _).trans (detached.same rfl rfl)
  · refine detached.keep (m := if _ then _ else _) ?_ rfl rfl
    split
    · rw [detached.indifferent.startQueued, detached.answerWaiting]
      exact (detached.notify _ .bootstrapFailed fun _ _ => nofun).trans (detached.same rfl rfl)
    · exact detached.same rfl rfl

theorem lookupCompleted (n : LocalNode) (id : LookupId) :
    view (n.lookupCompleted env id) = view n := by
  have hTold : ∀ target kind announce,
      view ({ n with lookups := n.lookups.filter (·.1 ≠ id) }.notify
        (.lookupCompleted target kind announce)) = view n := by
    intro target kind announce
    rw [detached.notify _ (.lookupCompleted target kind announce) fun _ _ => nofun]
    exact detached.same rfl rfl
  unfold LocalNode.lookupCompleted
  split
  · rfl
  next active _ =>
    dsimp only
    rw [detached.unconcerned.reserved.deliver fun _ _ => trivial]
    split
    · rw [detached.bootstrapLookupCompleted]
      exact detached.keep (hTold ..) rfl rfl
    · exact hTold ..

theorem wrapUpSome (count : Nat) (n : LocalNode) : view (wrapUpSome env count n) = view n := by
  induction count generalizing n with
  | zero => rfl
  | succ count ih =>
    rw [LocalNode.wrapUpSome]
    split
    · rfl
    · rw [ih]
      exact (detached.lookupCompleted ..).trans (detached.same rfl rfl)

theorem wrapUp (n : LocalNode) : view (n.wrapUp env) = view n :=
  detached.wrapUpSome ..

/-! ## Tasks and commands -/

theorem rejoinIfEmpty (n : LocalNode) : view (n.rejoinIfEmpty env) = view n := by
  unfold LocalNode.rejoinIfEmpty
  split
  · rw [detached.startBootstrap, detached.setState]
    exact detached.same rfl rfl
  · rfl

/-- Of the maintenance, nothing shows but that old peers are removed. -/
theorem maintain (n : LocalNode) :
    view (n.maintain env) = view { n with store := (n.store.expire env.now).2 } := by
  unfold LocalNode.maintain
  dsimp only
  refine detached.keep (m := LocalNode.announceAgain env _) ?_ rfl rfl
  rw [detached.indifferent.announceAgain, detached.rejoinIfEmpty,
    foldl_keeps view detached.indifferent.failStale]
  exact detached.same rfl rfl

theorem handleTask (n : LocalNode) (task : Task) :
    view (n.handleTask env task) = view n ∨
      view (n.handleTask env task) = view { n with store := (n.store.expire env.now).2 } := by
  cases task with
  | queryTimeout id => exact .inl (detached.indifferent.handleQueryTimeout ..)
  | tableRefresh => exact .inl (detached.refreshTick n)
  | maintenance => exact .inr (detached.maintain n)
  | bootstrapRetry => exact .inl (detached.startBootstrap n)

theorem handleCommand (n : LocalNode) (command : Command) :
    view (n.handleCommand env command) = view n := by
  cases command with
  | startBootstrap => exact detached.startBootstrap n
  | awaitBootstrap call =>
    rw [LocalNode.handleCommand]
    split
    · exact detached.overlooks n _ trivial
    · exact detached.same rfl rfl
  | lookup request => exact detached.indifferent.requestLookup ..
  | joinNetwork stream => exact detached.indifferent.joinNetwork ..
  | ping address => exact detached.sendQuery ..
  | shutDown => exact detached.same rfl rfl

/-- Of an event that brings no datagram, nothing shows but that old peers are removed. -/
theorem handleEvent (n : LocalNode) {event : Event}
    (another : ∀ sender data, event ≠ .datagram sender data) :
    view (n.handleEvent env event) = view n ∨
      view (n.handleEvent env event) = view { n with store := (n.store.expire env.now).2 } := by
  cases event with
  | command command => exact .inl (detached.handleCommand n command)
  | datagram sender data => exact absurd rfl (another sender data)
  | wake =>
    rw [LocalNode.handleEvent]
    split
    next task timer _ =>
      rcases detached.handleTask { n with timer } task with kept | expired
      · exact .inl (kept.trans (detached.same rfl rfl))
      · exact .inr (expired.trans (detached.same rfl rfl))
    · exact .inl rfl

theorem close (n : LocalNode) : view n.close = view n :=
  detached.overlooks.close
    (fun _ parting => by
      cases parting with
      | changed => exact fun _ _ => nofun
      | ended => trivial
      | unjoined => trivial
      | dropped => trivial)
    (fun _ _ _ _ _ _ => detached.same rfl rfl) n

/-- Of what a running node does after an event, nothing shows. -/
theorem step {n : LocalNode} (running : n.running = true) (event : Event) :
    view (n.step env event) = view ({ n with outbox := [] }.handleEvent env event) := by
  unfold LocalNode.step
  dsimp only
  rw [if_pos running]
  split
  · exact detached.wrapUp _
  · exact (detached.close _).trans (detached.wrapUp _)

end Detached

end LocalNode

/-! ## Replies -/

/-- The kind that stands in a message, if it is a byte string. -/
def Message.writtenKind (message : Message) : Option Bytes :=
  message.toDictionary.getBytes? Key.kind.bytes

/-- The transaction that stands in a message, if it is a byte string. -/
def Message.writtenTransaction (message : Message) : Option Bytes :=
  message.toDictionary.getBytes? Key.transaction.bytes

/-- A message to the effect of a reply was sent. -/
def Effect.isReply : Effect → Bool
  | .sent _ message _ => message.writtenKind = some Key.reply.bytes ∨
    message.writtenKind = some Key.error.bytes
  | _ => false

namespace Message

variable {message : Message}

theorem writtenKind_eq (known : ∀ kind payload, message.body ≠ .other kind payload) :
    message.writtenKind = some message.body.kind :=
  Dictionary.getBytes?_of_get? (get?_toDictionary
    (fun kind payload about => absurd about (known kind payload))
    (List.mem_append_right _ (by simp [envelope])))

theorem writtenTransaction_eq (known : ∀ kind payload, message.body ≠ .other kind payload) :
    message.writtenTransaction = some message.transaction :=
  Dictionary.getBytes?_of_get? (get?_toDictionary
    (fun kind payload about => absurd about (known kind payload))
    (List.mem_append_right _ (by simp [envelope])))

end Message

theorem Effect.isReply_query (destination : Destination) (transaction : Bytes) (query : Query)
    (delivered : Bool) :
    (sent destination (.ofBody transaction (.query query)) delivered).isReply = false := by
  have hKind : (Message.ofBody transaction (.query query)).writtenKind = some Key.method.bytes :=
    Message.writtenKind_eq nofun
  have hReply := Key.bytes_injective.ne (show Key.method ≠ .reply by decide)
  have hError := Key.bytes_injective.ne (show Key.method ≠ .error by decide)
  rw [isReply, hKind]
  apply decide_eq_false
  rintro (same | same)
  · exact hReply (Option.some.inj same)
  · exact hError (Option.some.inj same)

theorem Effect.Unasked.isReply {effect : Effect} (unasked : effect.Unasked) :
    effect.isReply = false := by
  cases effect with
  | sent destination message delivered =>
    rcases unasked with ⟨transaction, query, rfl⟩
    exact isReply_query ..
  | lookingUp => rfl
  | notice => rfl
  | answered => rfl
  | yielded => rfl
  | ended => rfl

namespace LocalNode

/-- The replies that were sent during the event at hand. -/
def replies (n : LocalNode) : List Effect :=
  n.outbox.filter Effect.isReply

theorem overlooks_replies : Overlooks replies fun effect => effect.isReply = false := by
  intro n effect quiet
  unfold replies emit
  dsimp only
  rw [List.filter_append, List.filter_singleton, quiet]
  exact List.append_nil _

theorem replies_notify (n : LocalNode) (notice : Notice) : (n.notify notice).replies = n.replies :=
  overlooks_replies n _ rfl

theorem detached_replies : Detached replies where
  overlooks n effect unasked := overlooks_replies n effect unasked.isReply
  same _ outbox := congrArg (List.filter Effect.isReply) outbox

end LocalNode
end Kademlia

import Kademlia.Proofs.LocalNode.Fitting
import Kademlia.Proofs.PeerStore.History
import Kademlia.Proofs.PeerStore.Remembering

namespace Kademlia

/-!
# Announcements that last

A peer that announces itself is stored, or it is refused.  If it is stored, those who search for it
find it until its time is up, whatever happens to the node in the meantime, unless so many others
are stored that not all of them are named.  If it is refused, nothing remains of the announcement.

Of all that a node does, only the answers to announcements and the maintenance touch the store, each
of them in a way that keeps what was announced (`PeerStore.Used`).
-/

open PeerStore (Used)

/-- The application is told of a peer. -/
def Effect.reportsPeer : Effect → Bool
  | .notice (.peerFound ..) => true
  | _ => false

namespace LocalNode

variable {n : LocalNode} {env : Surroundings} {sender : Address} {data : Bytes} {message : Message}
  {infoHash : InfoHash} {peer : Address}

/-! ## The store -/

theorem overlooks_store : Overlooks store fun _ => True :=
  fun _ _ _ => rfl

theorem detached_store : Detached store where
  overlooks _ _ _ := rfl
  same store _ := store

/-- What becomes of an announcement: either it is refused, or the peer is stored. -/
theorem answerAnnounce_cases (env : Surroundings) (n : LocalNode) (sender : Address)
    (infoHash : InfoHash) (port : Option UInt16) (token : Bytes) :
    let answered := n.answerAnnounce env sender infoHash port token
    let added := n.store.add env.now infoHash { sender with port := port.getD sender.port }
    (∃ error, answered.1 = .error error ∧ answered.2.outbox = n.outbox ∧
      (answered.2.store = n.store ∨ added.1 = .full ∧ answered.2.store = added.2)) ∨
    (∃ response, answered.1 = .response response ∧ added.1 ≠ .full ∧
      answered.2.store = added.2) := by
  unfold answerAnnounce
  split
  next valid checked same =>
    have hChecked : checked.store = n.store ∧ checked.outbox = n.outbox := by
      split at same
      · cases same
        exact ⟨rfl, rfl⟩
      · cases same
        exact ⟨rfl, rfl⟩
    split
    · exact .inl ⟨_, rfl, hChecked.2, .inl hChecked.1⟩
    · dsimp only
      rw [hChecked.1]
      generalize n.store.add env.now infoHash _ = added
      rcases added with ⟨outcome, after⟩
      cases outcome with
      | full => exact .inl ⟨_, rfl, hChecked.2, .inr ⟨rfl, rfl⟩⟩
      | inserted =>
        refine .inr ⟨_, rfl, nofun, ?_⟩
        dsimp only
        split <;> rfl
      | refreshed =>
        refine .inr ⟨_, rfl, nofun, ?_⟩
        dsimp only
        split <;> rfl

theorem used_answer (env : Surroundings) (n : LocalNode) (sender : Address) (compatible : Bool)
    (query : Query) : Used env.now n.store (n.answer env sender compatible query).2.store := by
  cases query with
  | ping id => exact .kept
  | findNode id target want => exact .kept
  | getPeers id infoHash want => exact .kept
  | other method id => exact .kept
  | announcePeer id infoHash port token =>
    rw [answer]
    rcases answerAnnounce_cases env n sender infoHash port token with
      ⟨error, -, -, kept | ⟨-, added⟩⟩ | ⟨response, -, -, added⟩
    · rw [kept]
      exact .kept
    · rw [added]
      exact .announced ..
    · rw [added]
      exact .announced ..

/-- A query is answered after the routing table may have taken note of its sender. -/
theorem handleQuery_eq (env : Surroundings) (n : LocalNode) (sender : Address) (message : Message)
    (query : Query) :
    ∃ noted : LocalNode, noted.store = n.store ∧ noted.outbox = n.outbox ∧
      let answered := noted.answer env sender (message.isSimilarTo Message.ownVersion) query
      n.handleQuery env sender message query =
        (answered.2.send env sender (.ofBody message.transaction answered.1)).2 := by
  rcases handleQuery_noted env n sender message query with ⟨table, -, handled⟩
  exact ⟨{ n with table }, rfl, rfl, handled⟩

theorem used_handleQuery (n : LocalNode) (query : Query) :
    Used env.now n.store (n.handleQuery env sender message query).store := by
  rcases handleQuery_eq env n sender message query with ⟨noted, store, -, handled⟩
  rw [handled, ← store]
  exact used_answer ..

theorem used_handleDatagram (n : LocalNode) :
    Used env.now n.store (n.handleDatagram env sender data).store := by
  have hHeard := heard_handleDatagram env n sender data
  have hReported := overlooks_store.reportPeer (fun _ _ => trivial) fun _ _ => trivial
  generalize n.handleDatagram env sender data = m at hHeard ⊢
  cases hHeard with
  | nothing => exact .kept
  | query => exact used_handleQuery n _
  | malformed => exact .kept
  | response =>
    rw [detached_store.handleResponse hReported]
    exact .kept
  | refusal =>
    rw [detached_store.indifferent.queryFailed]
    exact .kept

/-- What an event does to the store. -/
theorem used_step (env : Surroundings) (n : LocalNode) (event : Event) :
    Used env.now n.store (n.step env event).store := by
  cases running : n.running with
  | false =>
    unfold step
    dsimp only
    rw [running]
    exact .kept
  | true =>
    rw [detached_store.step running]
    by_cases brings : ∃ sender data, event = .datagram sender data
    · rcases brings with ⟨sender, data, rfl⟩
      exact used_handleDatagram { n with outbox := [] }
    · have hOther : ∀ sender data, event ≠ .datagram sender data := fun sender data same =>
        brings ⟨sender, data, same⟩
      rcases @Detached.handleEvent _ _ env detached_store { n with outbox := [] } event hOther with
        kept | expired
      · rw [kept]
        exact .kept
      · rw [expired]
        exact .expired

/-! ## In the course of events -/

/-- The store stays in order, and its limits stay what they are. -/
theorem tidy_run (tidy : n.store.Tidy) (events : List (Surroundings × Event)) :
    (n.run events).2.store.Tidy ∧ (n.run events).2.store.limits = n.store.limits := by
  induction events using List.reverseRecOn with
  | nil => exact ⟨tidy, rfl⟩
  | append_singleton past event ih =>
    have hUsed := used_step event.1 (n.run past).2 event.2
    rw [run_append]
    exact ⟨hUsed.tidy ih.1, (hUsed.limits ih.1).trans ih.2⟩

theorem lifetime_run (tidy : n.store.Tidy) (events : List (Surroundings × Event)) :
    (n.run events).2.store.lifetime = n.store.lifetime :=
  congrArg (fun limits => limits.2.2) (tidy_run tidy events).2

/-- A peer is not forgotten before its time, whatever happens. -/
theorem remembers_run {since : Instant} (tidy : n.store.Tidy)
    (remembers : n.store.Remembers infoHash peer since) (events : List (Surroundings × Event))
    (soon : ∀ event ∈ events, since ≤ event.1.now ∧ event.1.now < since + n.store.lifetime) :
    (n.run events).2.store.Remembers infoHash peer since := by
  induction events using List.reverseRecOn with
  | nil => exact remembers
  | append_singleton past event ih =>
    have hPast := ih fun other among => soon other (List.mem_append_left _ among)
    rcases soon event (List.mem_append_right _ (List.mem_singleton_self event)) with
      ⟨order, young⟩
    rw [← lifetime_run tidy past] at young
    rw [run_append]
    exact hPast.used (used_step event.1 (n.run past).2 event.2) (tidy_run tidy past).1 order young

theorem tidy_start (options : Options) (localAddress : Address) (now : Instant)
    (secrets : Draws (BitVec 32)) (firstTransaction : TransactionId) :
    (start options localAddress now secrets firstTransaction).store.Tidy :=
  (PeerStore.Recorded.start _ _ _ now).tidy

/-! ## The reply to a query -/

/-- The peers that the application was told of during the event at hand. -/
def reported (n : LocalNode) : List Effect :=
  n.outbox.filter Effect.reportsPeer

theorem detached_reported : Detached reported where
  overlooks n effect unasked := by
    have hOther : effect.reportsPeer = false := by
      cases effect with
      | notice told =>
        cases told with
        | peerFound infoHash peer => exact absurd rfl (unasked infoHash peer)
        | _ => rfl
      | _ => rfl
    rw [reported, emit]
    dsimp only
    rw [List.filter_append, List.filter_singleton, hOther]
    exact List.append_nil _
  same _ outbox := congrArg (List.filter Effect.reportsPeer) outbox

theorem not_told_of_reported {found : Address} (silent : n.reported = []) :
    .notice (.peerFound infoHash found) ∉ n.outbox := by
  intro told
  have hMember : .notice (.peerFound infoHash found) ∈ n.reported :=
    List.mem_filter.mpr ⟨told, rfl⟩
  rw [silent] at hMember
  cases hMember

/-- If a query is replied to, the reply is the answer to it, and nothing else shows of the event. -/
theorem replied_query {query : Query} {effect : Effect}
    (replied : effect ∈ (n.step env (.datagram sender data)).replies)
    (read : Message.decode (data.take maxDatagramLength) = .ok message)
    (about : message.body = .query query) :
    ∃ noted : LocalNode, noted.store = n.store ∧ noted.outbox = [] ∧
      let answered := noted.answer env sender (message.isSimilarTo Message.ownVersion) query
      let reply := Message.ofBody message.transaction answered.1
      (∃ delivered, effect = .sent sender reply delivered) ∧
        ∀ {γ : Type} {view : LocalNode → γ}, Detached view →
          view (n.step env (.datagram sender data)) = view (answered.2.send env sender reply).2 := by
  have hRunning : n.running = true := by
    cases running : n.running with
    | true => rfl
    | false =>
      rw [replies_of_stopped running] at replied
      cases replied
  have hAnswers : ({ n with outbox := [] } : LocalNode).readOnly = false := by
    cases silent : ({ n with outbox := [] } : LocalNode).readOnly with
    | false => rfl
    | true =>
      rw [replies_step hRunning, handleEvent, replies_of_readOnly silent] at replied
      cases replied
  have hHandled : ({ n with outbox := [] } : LocalNode).handleEvent env (.datagram sender data) =
      ({ n with outbox := [] } : LocalNode).handleQuery env sender message query := by
    rw [handleEvent]
    exact handleDatagram_of_query hAnswers read about
  rcases handleQuery_eq env { n with outbox := [] } sender message query with
    ⟨noted, store, outbox, handled⟩
  refine ⟨noted, store, outbox, ?_, fun detached => ?_⟩
  · rcases @replies_answer env sender noted message.transaction
      (message.isSimilarTo Message.ownVersion) query with ⟨answers, kept⟩
    have hNone : noted.replies = [] := by
      rw [LocalNode.replies, outbox]
      rfl
    rw [replies_step hRunning, hHandled, handled, replies_send answers, kept, hNone] at replied
    exact ⟨_, List.mem_singleton.mp replied⟩
  · rw [detached.step hRunning, hHandled, handled]

/-! ## Those who search -/

/-- A response names the peer, or else a hundred others of its family that are stored, so that there
is no room for it. -/
def NamesUnlessCrowded (stored : List Address) (peer : Address) (response : Response) : Prop :=
  peer ∈ response.values ∨
    response.values.length = 100 ∧ response.values.Nodup ∧
      ∀ other ∈ response.values, other ≠ peer ∧ other.family = peer.family ∧ other ∈ stored

theorem Names.unlessCrowded {now : Instant} {response : Response}
    (names : n.Names now peer.family infoHash response) (tidy : n.store.Tidy)
    (stored : peer ∈ n.storedPeers now infoHash) :
    NamesUnlessCrowded (n.storedPeers now infoHash) peer response := by
  have hValues : response.values =
      ((n.storedPeers now infoHash).filter (·.family = peer.family)).take maxValues := names.values
  have hListed : response.values.Sublist (n.storedPeers now infoHash) := by
    rw [hValues]
    exact (List.take_sublist _ _).trans List.filter_sublist
  by_cases named : peer ∈ response.values
  · exact .inl named
  have hMany : maxValues ≤ ((n.storedPeers now infoHash).filter (·.family = peer.family)).length := by
    by_contra few
    rw [hValues, List.take_of_length_le (Nat.le_of_lt (Nat.lt_of_not_le few))] at named
    exact named (List.mem_filter.mpr ⟨stored, decide_eq_true rfl⟩)
  refine .inr ⟨?_, (tidy.nodup_find now infoHash).sublist hListed, fun other among => ?_⟩
  · rw [hValues]
    exact List.length_take_of_le hMany
  · have hOther : other ≠ peer := by
      rintro rfl
      exact named among
    have hFamily : other.family = peer.family := by
      rw [names.values] at among
      exact namedPeers_of_mem among
    exact ⟨hOther, hFamily, hListed.subset among⟩

/-- Whoever searches for the peers under the key and is replied to, is sent a response that names the
peer, unless there is no room for it. -/
def IsFound (n : LocalNode) (env : Surroundings) (infoHash : InfoHash) (peer : Address) : Prop :=
  ∀ (sender : Address) (data : Bytes) (message : Message) (id : NodeId) (want : Option Want),
    Message.decode (data.take maxDatagramLength) = .ok message →
    message.body = .query (.getPeers id infoHash want) → sender.family = peer.family →
    ∀ effect ∈ (n.step env (.datagram sender data)).replies, ∃ response delivered,
      effect = .sent sender (.ofBody message.transaction (.response response)) delivered ∧
        NamesUnlessCrowded (n.storedPeers env.now infoHash) peer response

theorem isFound_of_stored (tidy : n.store.Tidy) (stored : peer ∈ n.storedPeers env.now infoHash) :
    n.IsFound env infoHash peer := by
  intro sender data message id want read about family effect replied
  rcases replied_query replied read about with ⟨noted, store, -, ⟨delivered, same⟩, -⟩
  rcases answer_getPeers env noted sender (message.isSimilarTo Message.ownVersion) id infoHash want
    with ⟨response, tokens, answered, names⟩
  rw [answered] at same
  have hNames := names.of_store store
  rw [family] at hNames
  exact ⟨response, delivered, same, hNames.unlessCrowded tidy stored⟩

/-- Until its time is up, a peer that is remembered is stored and is found, whatever happens. -/
theorem found_of_remembers {since : Instant} {later : Surroundings} (tidy : n.store.Tidy)
    (remembers : n.store.Remembers infoHash peer since) (events : List (Surroundings × Event))
    (soon : ∀ event ∈ events, since ≤ event.1.now ∧ event.1.now ≤ later.now)
    (order : since ≤ later.now) (young : later.now < since + n.store.lifetime) :
    peer ∈ (n.run events).2.storedPeers later.now infoHash ∧
      (n.run events).2.IsFound later infoHash peer := by
  have hSoon : ∀ event ∈ events, since ≤ event.1.now ∧ event.1.now < since + n.store.lifetime :=
    fun event among => ⟨(soon event among).1, Nat.lt_of_le_of_lt (soon event among).2 young⟩
  have hStored : peer ∈ (n.run events).2.storedPeers later.now infoHash := by
    refine (remembers_run tidy remembers events hSoon).mem_find order ?_
    rw [lifetime_run tidy events]
    exact young
  exact ⟨hStored, isFound_of_stored (tidy_run tidy events).1 hStored⟩

/-! ## Announcements -/

/-- Nothing remains of an announcement that is refused. -/
theorem traceless_of_refused {noted : LocalNode} {port : Option UInt16} {token : Bytes}
    {error : ErrorReply} (tidy : noted.store.Tidy)
    (refused : (noted.answerAnnounce env sender infoHash port token).1 = .error error) :
    let after := (noted.answerAnnounce env sender infoHash port token).2
    after.outbox = noted.outbox ∧ ∀ later ≥ env.now, ∀ hash,
      after.store.find later hash = noted.store.find later hash := by
  dsimp only
  rcases answerAnnounce_cases env noted sender infoHash port token with
    ⟨_, -, outbox, kept | ⟨full, added⟩⟩ | ⟨response, accepted, -, -⟩
  · refine ⟨outbox, fun later _ hash => ?_⟩
    rw [kept]
  · refine ⟨outbox, fun later order hash => ?_⟩
    rw [added]
    exact (PeerStore.swept_add_of_full tidy full).find order hash
  · cases refused.symm.trans accepted

/-- An announcement that is accepted is remembered. -/
theorem remembers_of_accepted {noted : LocalNode} {port : Option UInt16} {token : Bytes}
    {response : Response} (tidy : noted.store.Tidy) (lasting : 0 < noted.store.lifetime)
    (accepted : (noted.answerAnnounce env sender infoHash port token).1 = .response response) :
    (noted.answerAnnounce env sender infoHash port token).2.store.Remembers infoHash
      { sender with port := port.getD sender.port } env.now := by
  rcases answerAnnounce_cases env noted sender infoHash port token with
    ⟨error, refused, -⟩ | ⟨_, -, room, added⟩
  · cases accepted.symm.trans refused
  · rw [added]
    exact PeerStore.remembers_add tidy lasting room

/-- Of an announcement that is refused nothing remains: the stored peers are the same, now and later,
and the application is not told of any.  A peer whose announcement is accepted is stored until its
time is up, whatever happens to the node in the meantime, and whoever searches for it finds it,
unless a hundred others are named instead. -/
theorem stored_of_announced (options : Options) (localAddress : Address) (began : Instant)
    (secrets : Draws (BitVec 32)) (firstTransaction : TransactionId)
    (past : List (Surroundings × Event)) (env : Surroundings) (sender : Address) (data : Bytes)
    (message : Message) (id : NodeId) (infoHash : InfoHash) (port : Option UInt16) (token : Bytes)
    (read : Message.decode (data.take maxDatagramLength) = .ok message)
    (about : message.body = .query (.announcePeer id infoHash port token)) :
    let n := ((start options localAddress began secrets firstTransaction).run past).2
    let m := n.step env (.datagram sender data)
    let peer : Address := { sender with port := port.getD sender.port }
    ∀ destination reply delivered, .sent destination reply delivered ∈ m.replies →
      (∀ error, reply.body = .error error →
        (∀ later ≥ env.now, ∀ hash, m.storedPeers later hash = n.storedPeers later hash) ∧
        ∀ hash found, .notice (.peerFound hash found) ∉ m.outbox) ∧
      (∀ response, reply.body = .response response →
        ∀ (events : List (Surroundings × Event)) (later : Surroundings),
          (∀ event ∈ events, env.now ≤ event.1.now ∧ event.1.now ≤ later.now) →
          env.now ≤ later.now → later.now < env.now + options.settings.peerLifetime →
          peer ∈ (m.run events).2.storedPeers later.now infoHash ∧
            (m.run events).2.IsFound later infoHash peer) := by
  intro n m peer destination reply delivered replied
  have hStart := tidy_start options localAddress began secrets firstTransaction
  have hTidy : n.store.Tidy := (tidy_run hStart past).1
  have hLifetime : n.store.lifetime = options.settings.peerLifetime := lifetime_run hStart past
  rcases replied_query replied read about with ⟨noted, store, outbox, ⟨_, same⟩, shows⟩
  rcases (Effect.sent.inj same).2.1 with rfl
  rw [answer] at shows ⊢
  have hStore : m.store = (noted.answerAnnounce env sender infoHash port token).2.store :=
    shows detached_store
  rw [← store] at hTidy hLifetime
  refine ⟨fun error refused => ?_, fun response accepted events later soon order young => ?_⟩
  · rcases traceless_of_refused hTidy refused with ⟨silent, kept⟩
    constructor
    · intro later order hash
      rw [storedPeers, storedPeers, hStore, kept later order hash, store]
    · intro hash found
      apply not_told_of_reported
      rw [shows detached_reported, reported, send, emit]
      dsimp only
      rw [silent, outbox]
      rfl
  · have hLasting : 0 < noted.store.lifetime := by
      rw [hLifetime]
      exact Nat.pos_of_lt_add_right (Nat.lt_of_le_of_lt order young)
    have hUsed : Used env.now n.store m.store := used_step env n (.datagram sender data)
    have hRemembers := remembers_of_accepted hTidy hLasting accepted
    rw [store] at hTidy hLifetime
    rw [← hStore] at hRemembers
    have hLifetimeAfter : m.store.lifetime = options.settings.peerLifetime :=
      (congrArg (fun limits => limits.2.2) (hUsed.limits hTidy)).trans hLifetime
    refine found_of_remembers (hUsed.tidy hTidy) hRemembers events soon order ?_
    rw [hLifetimeAfter]
    exact young

/-- What happens to a node while a peer is stored. -/
def meantime : List (Surroundings × Event) :=
  [(.reliable 60000, .wake),
    (⟨900000, fun _ _ => false, fun _ => [], .asSent⟩, .command (.ping ⟨.v4 2, 2⟩))]

/-- One node takes the word of those that announce themselves, another one wants a token. -/
theorem stored_of_announcement :
    let host : Address := ⟨.v6 1, 1⟩
    let peer : Address := ⟨.v6 1, 6881⟩
    let data := (announcement 6880).encode
    let trusted := trusting.step atOnce (.datagram host data)
    let wary := start { id := .zero } ⟨.v6 2, 2⟩ 0 default ⟨0⟩
    let refused := wary.step atOnce (.datagram host data)
    let accepting := Message.ofBody [0x61, 0x61] (.response { sender := .zero })
    let refusing := Message.ofBody [0x61, 0x61]
      (refuse ErrorReply.protocolError "received an invalid token")
    Message.decode (data.take maxDatagramLength) = .ok (announcement 6880) ∧
      .sent host accepting true ∈ trusted.replies ∧
      peer ∈ (trusted.run meantime).2.storedPeers 1000000 .zero ∧
      (trusted.run meantime).2.IsFound (.reliable 1000000) .zero peer ∧
      .sent host refusing true ∈ refused.replies ∧
      (∀ later ≥ 0, ∀ hash, refused.storedPeers later hash = wary.storedPeers later hash) ∧
      ∀ hash found, .notice (.peerFound hash found) ∉ refused.outbox := by
  intro host peer data trusted wary refused accepting refusing
  have hRead : Message.decode (data.take maxDatagramLength) = .ok (announcement 6880) := by
    decide +kernel
  have hAccepted : .sent host accepting true ∈ trusted.replies := by
    decide +kernel
  have hRefused : .sent host refusing true ∈ refused.replies := by
    decide +kernel
  have hStored := (stored_of_announced { id := .zero, settings := { validateTokens := false } }
    ⟨.v6 2, 2⟩ 0 default ⟨0⟩ [] atOnce host data (announcement 6880) ⟨1⟩ .zero (some 6881) [] hRead
    rfl _ _ _ hAccepted).2 _ rfl meantime (.reliable 1000000) (by decide)
    (by decide) (by decide)
  have hTraceless := (stored_of_announced { id := .zero } ⟨.v6 2, 2⟩ 0 default ⟨0⟩ [] atOnce host
    data (announcement 6880) ⟨1⟩ .zero (some 6881) [] hRead rfl _ _ _ hRefused).1 _ rfl
  exact ⟨hRead, hAccepted, hStored.1, hStored.2, hRefused, hTraceless.1, hTraceless.2⟩

end LocalNode
end Kademlia

import Kademlia.Proofs.PeerStore.Operations
import Mathlib.Data.Set.Card

namespace Kademlia
namespace PeerStore

/-!
# What a store says of its history

A store is asked to announce peers, to list them and to expire, at times that never go back.  What
it answers can be told from its history alone: a peer is live if its last announcement that was not
refused is less than a lifetime old, live peers are listed once each, and only live peers count
against the limits.  The requests to expire are of no account for any other answer, however many
there are and wherever they stand.

The histories need not be long enough to fill anything, and the limit on all peers and the lifetime
may be zero.  The limit of a key may not: a key without an entry is not held to it.
-/

/-- What a store can be asked. -/
inductive Request where
  | announce (hash : InfoHash) (address : Address)
  | list (hash : InfoHash)
  | expire
deriving DecidableEq

/-- What a store can answer. -/
inductive Reply where
  | announced (outcome : AddOutcome)
  | listed (peers : List Address)
  | expired (count : Nat)
deriving DecidableEq

/-- A request with its time and its answer. -/
structure Served where
  time : Instant
  request : Request
  reply : Reply
deriving DecidableEq

/-- A store that nothing was announced to. -/
def new (maxPerHash maxTotal : Nat) (lifetime : Duration) : PeerStore :=
  { maxPerHash, maxTotal, lifetime }

/-- Answers one request. -/
def serve (store : PeerStore) (now : Instant) : Request → Reply × PeerStore
  | .announce hash address =>
    let (outcome, after) := store.add now hash address
    (.announced outcome, after)
  | .list hash => (.listed (store.find now hash), store)
  | .expire =>
    let (count, after) := store.expire now
    (.expired count, after)

/-- Answers requests one after another, each at its time. -/
def run (store : PeerStore) : List (Instant × Request) → List Served × PeerStore
  | [] => ([], store)
  | (now, request) :: rest =>
    let (reply, after) := store.serve now request
    let (served, last) := after.run rest
    (⟨now, request, reply⟩ :: served, last)

/-- Whether an announcement of the peer was not refused. -/
def Served.announces (served : Served) (hash : InfoHash) (address : Address) : Bool :=
  served.request = .announce hash address &&
    (served.reply = .announced .inserted || served.reply = .announced .refreshed)

/-- When the peer was last announced and not refused. -/
def announcedAt? (history : List Served) (hash : InfoHash) (address : Address) : Option Instant :=
  (history.filter (·.announces hash address)).getLast?.map (·.time)

/-- The last announcement of the peer that was not refused is less than a lifetime old. -/
def LiveBy (history : List Served) (lifetime : Duration) (now : Instant) (hash : InfoHash)
    (address : Address) : Prop :=
  ∃ time, announcedAt? history hash address = some time ∧ now - time < lifetime

variable {store : PeerStore} {now next : Instant} {hash : InfoHash} {address : Address}
  {history : List Served} {request : Request} {requests : List (Instant × Request)}
  {peer : AnnouncedPeer}

/-! ## The last announcement -/

theorem announcedAt?_append (history : List Served) (served : Served) (hash : InfoHash)
    (address : Address) : announcedAt? (history ++ [served]) hash address =
      if served.announces hash address then some served.time
      else announcedAt? history hash address := by
  unfold announcedAt?
  rw [List.filter_append, List.filter_singleton]
  cases served.announces hash address with
  | true => exact congrArg (Option.map Served.time) List.getLast?_concat
  | false => rw [cond_false, List.append_nil, if_neg Bool.false_ne_true]

/-- A request that announces no peer, or another one, leaves the last announcement. -/
theorem announcedAt?_other {served : Served} (another : served.announces hash address = false) :
    announcedAt? (history ++ [served]) hash address = announcedAt? history hash address := by
  rw [announcedAt?_append, another, if_neg Bool.false_ne_true]

theorem announces_other {time : Instant} {reply : Reply} (another : request ≠ .announce hash address) :
    Served.announces ⟨time, request, reply⟩ hash address = false := by
  unfold Served.announces
  rw [decide_eq_false another, Bool.false_and]

theorem announces_accepted {time : Instant} {outcome : AddOutcome} (accepted : outcome ≠ .full) :
    Served.announces ⟨time, .announce hash address, .announced outcome⟩ hash address = true := by
  unfold Served.announces
  rw [decide_eq_true rfl, Bool.true_and]
  cases outcome with
  | inserted => rfl
  | refreshed => rfl
  | full => exact absurd rfl accepted

/-! ## The store and its history -/

/-- The store is in order, and its live peers are those that are live by its history. -/
structure Recorded (history : List Served) (now : Instant) (store : PeerStore) : Prop where
  tidy : store.Tidy
  live : ∀ hash peer, peer ∈ store.live now hash ↔
    announcedAt? history hash peer.address = some peer.announcedAt ∧
      store.isLive now peer = true

theorem Recorded.start (maxPerHash maxTotal : Nat) (lifetime : Duration) (now : Instant) :
    Recorded [] now (new maxPerHash maxTotal lifetime) where
  tidy := ⟨List.nodup_nil, fun _ => List.nodup_nil, rfl⟩
  live := fun _ _ => iff_of_false List.not_mem_nil fun announced => nomatch announced.1

theorem Recorded.later (recorded : Recorded history now store) (order : now ≤ next) :
    Recorded history next store where
  tidy := recorded.tidy
  live := by
    intro hash peer
    rw [live_later store order, List.mem_filter, recorded.live, and_assoc]
    refine and_congr_right fun _ => and_iff_right_of_imp ?_
    exact isLive_later order

/-- A request that announces nothing changes nothing, if it leaves the live peers. -/
theorem Recorded.swept {served : Served} {swept : PeerStore} (recorded : Recorded history now store)
    (sweep : Swept store now swept)
    (silent : ∀ hash address, served.announces hash address = false) :
    Recorded (history ++ [served]) now swept where
  tidy := sweep.tidy
  live := by
    intro hash peer
    rw [sweep.live, recorded.live, isLive_eq_of_limits sweep.limits,
      announcedAt?_other (silent hash peer.address)]

theorem Recorded.added {outcome : AddOutcome} {after : PeerStore}
    (recorded : Recorded history now store)
    (added : Added store now hash address (outcome, after)) (accepted : outcome ≠ .full) :
    Recorded (history ++ [⟨now, .announce hash address, .announced outcome⟩]) now after where
  tidy := added.tidy
  live := by
    intro key peer
    rw [isLive_eq_of_limits added.limits]
    by_cases here : key = hash
    · subst here
      rw [added.mem_live accepted recorded.tidy]
      by_cases same : peer.address = address
      · subst same
        rw [announcedAt?_append, announces_accepted accepted, if_pos rfl,
          or_iff_left fun old => old.2 rfl]
        refine and_congr_left fun _ => ?_
        constructor
        · intro fresh
          rw [fresh]
        · intro time
          have hTime : now = peer.announcedAt := Option.some.inj time
          rw [hTime]
      · have hOther : Request.announce key address ≠ .announce key peer.address := by
          intro request
          cases request
          exact same rfl
        rw [announcedAt?_other (announces_other hOther), ← recorded.live, and_iff_left same]
        refine or_iff_right fun fresh => same ?_
        rw [fresh.1]
    · have hOther : Request.announce hash address ≠ .announce key peer.address := by
        intro request
        cases request
        exact here rfl
      rw [announcedAt?_other (announces_other hOther), added.live_other here, recorded.live]

theorem Recorded.serve (recorded : Recorded history now store) (request : Request) :
    Recorded (history ++ [⟨now, request, (store.serve now request).1⟩]) now
      (store.serve now request).2 := by
  cases request with
  | announce hash address =>
    have hAdded := added_add recorded.tidy now hash address
    unfold PeerStore.serve
    dsimp only
    generalize store.add now hash address = added at hAdded ⊢
    rcases added with ⟨outcome, after⟩
    cases outcome with
    | inserted => exact recorded.added hAdded nofun
    | refreshed => exact recorded.added hAdded nofun
    | full =>
      cases hAdded with
      | full _ _ sweep =>
        refine recorded.swept sweep fun hash address => ?_
        unfold Served.announces
        exact Bool.and_eq_false_iff.mpr (.inr rfl)
  | list hash =>
    exact recorded.swept (.refl recorded.tidy) fun _ _ => announces_other nofun
  | expire =>
    exact recorded.swept (swept_expire recorded.tidy now) fun _ _ => announces_other nofun

theorem limits_serve (tidy : store.Tidy) (now : Instant) (request : Request) :
    (store.serve now request).2.limits = store.limits := by
  cases request with
  | announce hash address => exact (added_add tidy now hash address).limits
  | list hash => rfl
  | expire => rfl

theorem positive_of_limits {after : PeerStore} (same : after.limits = store.limits)
    (positive : 1 ≤ store.maxPerHash) : 1 ≤ after.maxPerHash := by
  rw [maxPerHash_of_limits same]
  exact positive

/-- The requests come at times that never go back, the last one no later than now. -/
def InOrder (requests : List (Instant × Request)) (now : Instant) : Prop :=
  (requests.map (·.1) ++ [now]).Pairwise (· ≤ ·)

theorem Recorded.run {start : Instant} (recorded : Recorded history start store)
    (order : ∀ time ∈ requests.map (·.1) ++ [now], start ≤ time)
    (ordered : InOrder requests now) :
    Recorded (history ++ (store.run requests).1) now (store.run requests).2 ∧
      (store.run requests).2.limits = store.limits := by
  induction requests generalizing history start store with
  | nil =>
    rw [PeerStore.run, List.append_nil]
    exact ⟨recorded.later (order now (List.mem_singleton_self now)), rfl⟩
  | cons first rest ih =>
    rcases first with ⟨time, request⟩
    rcases List.pairwise_cons.mp ordered with ⟨before, later⟩
    have hRecorded := recorded.later (order time List.mem_cons_self)
    have hLimits := limits_serve hRecorded.tidy time request
    have hRest := ih (hRecorded.serve request) before later
    rw [PeerStore.run]
    dsimp only
    rw [List.append_assoc, hLimits] at hRest
    exact hRest

/-- The requests to expire are of no account for the answers to the others. -/
theorem filter_run {start : Instant} {swept : PeerStore} (sweep : Swept store start swept)
    (tidy : store.Tidy) (positive : 1 ≤ store.maxPerHash)
    (order : ∀ time ∈ requests.map (·.1) ++ [now], start ≤ time)
    (ordered : InOrder requests now) :
    (store.run requests).1.filter (·.request ≠ .expire) =
      (swept.run (requests.filter (·.2 ≠ .expire))).1 := by
  induction requests generalizing start store swept with
  | nil => rfl
  | cons first rest ih =>
    rcases first with ⟨time, request⟩
    rcases List.pairwise_cons.mp ordered with ⟨before, later⟩
    have hSweep := sweep.later (order time List.mem_cons_self)
    have hLimits := limits_serve tidy time request
    have hPositive := positive_of_limits hLimits positive
    rw [PeerStore.run, List.filter_cons, List.filter_cons]
    dsimp only
    cases request with
    | announce hash address =>
      rcases hSweep.add tidy positive hash address with ⟨hOutcome, hAfter⟩
      have hTidy := (added_add tidy time hash address).tidy
      have hRest := ih hAfter hTidy hPositive before later
      rw [if_pos (by simp), if_pos (by simp), PeerStore.run]
      unfold PeerStore.serve
      dsimp only
      rw [hOutcome, ← hRest]
    | list hash =>
      have hRest := ih hSweep tidy hPositive before later
      have hFind : store.find time hash = swept.find time hash :=
        (hSweep.find (Nat.le_refl time) hash).symm
      rw [if_pos (by simp), if_pos (by simp), PeerStore.run]
      unfold PeerStore.serve
      dsimp only
      rw [hFind, ← hRest]
    | expire =>
      have hExpire := swept_expire tidy time
      have hRest := ih ((hExpire.symm tidy).trans hSweep) hExpire.tidy hPositive before later
      rw [if_neg (by simp), if_neg (by simp)]
      exact hRest

/-! ## The refinement -/

/-- A store behaves like a table of the peers that are live by its history. -/
structure Mirrors (maxPerHash maxTotal : Nat) (lifetime : Duration) (history : List Served)
    (now : Instant) (store : PeerStore) : Prop where
  /-- The live peers of a key are listed, each of them once. -/
  listed : ∀ hash, (store.find now hash).Nodup ∧
    ∀ address, address ∈ store.find now hash ↔ LiveBy history lifetime now hash address
  refreshed : ∀ hash address, (store.add now hash address).1 = .refreshed ↔
    LiveBy history lifetime now hash address
  full : ∀ hash address, (store.add now hash address).1 = .full ↔
    ¬ LiveBy history lifetime now hash address ∧
      (maxPerHash ≤ {address | LiveBy history lifetime now hash address}.ncard ∨
        maxTotal ≤ {pair : InfoHash × Address |
          LiveBy history lifetime now pair.1 pair.2}.ncard)
  inserted : ∀ hash address, (store.add now hash address).1 = .inserted ↔
    ¬ LiveBy history lifetime now hash address ∧
      ¬ (maxPerHash ≤ {address | LiveBy history lifetime now hash address}.ncard ∨
        maxTotal ≤ {pair : InfoHash × Address |
          LiveBy history lifetime now pair.1 pair.2}.ncard)
  /-- A refused announcement changes nothing, now or later. -/
  refused : ∀ hash address, (store.add now hash address).1 = .full → ∀ next ≥ now, ∀ other,
    (store.add now hash address).2.find next other = store.find next other

/-- As many items have a property as a list of them is long. -/
theorem ncard_setOf {α : Type} {items : List α} {property : α → Prop} (distinct : items.Nodup)
    (exactly : ∀ item, item ∈ items ↔ property item) : {item | property item}.ncard = items.length := by
  classical
  have hSet : {item | property item} = (items.toFinset : Set α) := by
    ext item
    simp [exactly]
  rw [hSet, Set.ncard_coe_finset, List.toFinset_card_of_nodup distinct]

theorem Recorded.mem_find (recorded : Recorded history now store) (hash : InfoHash)
    (address : Address) :
    address ∈ store.find now hash ↔ LiveBy history store.lifetime now hash address := by
  constructor
  · intro listed
    rcases List.mem_map.mp listed with ⟨peer, among, rfl⟩
    rcases (recorded.live hash peer).mp among with ⟨announced, lives⟩
    exact ⟨peer.announcedAt, announced, of_decide_eq_true lives⟩
  · intro live
    rcases live with ⟨time, announced, young⟩
    have hLive := (recorded.live hash ⟨address, time⟩).mpr ⟨announced, decide_eq_true young⟩
    exact List.mem_map.mpr ⟨⟨address, time⟩, hLive, rfl⟩

theorem Recorded.mirrors (recorded : Recorded history now store) (positive : 1 ≤ store.maxPerHash) :
    Mirrors store.maxPerHash store.maxTotal store.lifetime history now store := by
  have hListed := recorded.mem_find
  have hUnder : ∀ hash, {address | LiveBy history store.lifetime now hash address}.ncard =
      (store.find now hash).length := fun hash =>
    ncard_setOf (recorded.tidy.nodup_find now hash) (hListed hash)
  have hTotal : {pair : InfoHash × Address |
      LiveBy history store.lifetime now pair.1 pair.2}.ncard = (store.livePairs now).length :=
    ncard_setOf (recorded.tidy.nodup_livePairs now) fun pair =>
      (mem_livePairs recorded.tidy.keys).trans (hListed pair.1 pair.2)
  have hAdded := fun hash address => added_add recorded.tidy now hash address
  refine ⟨fun hash => ⟨recorded.tidy.nodup_find now hash, hListed hash⟩, ?_, ?_, ?_, ?_⟩
  · intro hash address
    rw [((hAdded hash address).outcome_iff positive).1, hListed]
  · intro hash address
    rw [((hAdded hash address).outcome_iff positive).2.1, hListed, hUnder, hTotal]
    rfl
  · intro hash address
    rw [((hAdded hash address).outcome_iff positive).2.2, hListed, hUnder, hTotal]
    rfl
  · intro hash address refused next order other
    exact (swept_add_of_full recorded.tidy refused).find order other

/-- Whatever a store is asked, in order, it mirrors the announcements that it did not refuse; and
without the requests to expire, all other answers are the same. -/
theorem mirrors_run (maxPerHash maxTotal : Nat) (lifetime : Duration) (positive : 1 ≤ maxPerHash)
    (requests : List (Instant × Request)) (now : Instant) (ordered : InOrder requests now) :
    Mirrors maxPerHash maxTotal lifetime ((new maxPerHash maxTotal lifetime).run requests).1 now
        ((new maxPerHash maxTotal lifetime).run requests).2 ∧
      ((new maxPerHash maxTotal lifetime).run requests).1.filter (·.request ≠ .expire) =
        ((new maxPerHash maxTotal lifetime).run (requests.filter (·.2 ≠ .expire))).1 := by
  have hStart := Recorded.start maxPerHash maxTotal lifetime 0
  have hOrder : ∀ time ∈ requests.map (·.1) ++ [now], 0 ≤ time := fun time _ => Nat.zero_le time
  rcases hStart.run hOrder ordered with ⟨recorded, limits⟩
  refine ⟨?_, filter_run (.refl hStart.tidy) hStart.tidy positive hOrder ordered⟩
  rw [List.nil_append] at recorded
  generalize (new maxPerHash maxTotal lifetime).run requests = served at recorded limits ⊢
  have hMirrors := recorded.mirrors (positive_of_limits limits positive)
  rcases served with ⟨history, store⟩
  rcases store with ⟨perHash, total, lasting, peers, count⟩
  rcases Prod.mk.inj limits with ⟨rfl, rest⟩
  rcases Prod.mk.inj rest with ⟨rfl, rfl⟩
  exact hMirrors

/-- A key with room for one peer, which dies before the next one comes. -/
def visits : List (Instant × Request) :=
  [(0, .announce .zero ⟨.v4 1, 1⟩), (5, .announce .zero ⟨.v4 2, 2⟩), (8, .expire),
    (10, .announce .zero ⟨.v4 2, 2⟩)]

theorem mirrors_visits :
    1 ≤ 1 ∧ InOrder visits 12 ∧
      ((new 1 2 10).run visits).2.find 12 .zero = [⟨.v4 2, 2⟩] ∧
      Mirrors 1 2 10 ((new 1 2 10).run visits).1 12 ((new 1 2 10).run visits).2 := by
  have hOrdered : InOrder visits 12 := by
    unfold InOrder
    decide
  exact ⟨Nat.le_refl 1, hOrdered, by decide +kernel,
    (mirrors_run 1 2 10 (Nat.le_refl 1) visits 12 hOrdered).1⟩

end PeerStore
end Kademlia

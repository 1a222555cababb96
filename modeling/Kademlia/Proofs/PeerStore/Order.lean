import Kademlia.Proofs.History
import Kademlia.Proofs.PeerStore.History

namespace Kademlia
namespace PeerStore

/-!
# The order in which peers are listed

A peer that is new to its key is put behind the others, and stays at its place as long as it lives:
when it is announced again its time starts anew, but it is not moved.  The live peers of a key are
therefore listed in the order in which they were taken in (`Precedes`), which is the order of their
last announcements if none was announced again in between.
-/

variable {store after : PeerStore} {now next : Instant} {hash : InfoHash} {address : Address}
  {first second : Address} {history : List Served} {served : Served} {place : Nat}
  {requests : List (Instant × Request)}

/-- The request announced the peer, and it was new to the key. -/
def Served.Enters (served : Served) (hash : InfoHash) (address : Address) : Prop :=
  served.request = .announce hash address ∧ served.reply = .announced .inserted

/-- The request announced the peer, and its time was started again. -/
def Served.Renews (served : Served) (hash : InfoHash) (address : Address) : Prop :=
  served.request = .announce hash address ∧ served.reply = .announced .refreshed

/-- The peer was new to the key at that place of the history, and never after it. -/
def EnteredAt (history : List Served) (hash : InfoHash) (address : Address) (place : Nat) : Prop :=
  ∃ served, Lasts history place served (·.Enters hash address) ∧ served.Enters hash address

/-- The first peer was taken in before the second one. -/
def Precedes (history : List Served) (hash : InfoHash) (first second : Address) : Prop :=
  ∃ early late, EnteredAt history hash first early ∧ EnteredAt history hash second late ∧
    early < late

/-- The first peer was last announced later than the second one. -/
def Younger (history : List Served) (hash : InfoHash) (first second : Address) : Prop :=
  ∃ late early, announcedAt? history hash first = some late ∧
    announcedAt? history hash second = some early ∧ early < late

/-- Which peers of a key are listed, and in which order. -/
structure Arranged (history : List Served) (lifetime : Duration) (now : Instant) (hash : InfoHash)
    (listed : List Address) : Prop where
  members : ∀ address, address ∈ listed ↔ LiveBy history lifetime now hash address
  order : listed.Pairwise (Precedes history hash)
  /-- Renewing a peer is what gets it listed before one that was last announced earlier. -/
  younger : listed.Pairwise fun first second =>
    (Younger history hash first second ↔
      ∃ served ∈ history, served.Renews hash first ∧
        ∃ early, announcedAt? history hash second = some early ∧ early < served.time)

/-! ## Taking in -/

theorem EnteredAt.append (entered : EnteredAt history hash address place)
    (another : ¬ served.Enters hash address) :
    EnteredAt (history ++ [served]) hash address place := by
  rcases entered with ⟨start, lasting, enters⟩
  exact ⟨start, lasts_append.mpr (.inr ⟨lasting, another⟩), enters⟩

theorem EnteredAt.new (history : List Served) (enters : served.Enters hash address) :
    EnteredAt (history ++ [served]) hash address history.length :=
  ⟨served, lasts_append.mpr (.inl ⟨rfl, rfl⟩), enters⟩

theorem EnteredAt.lt_length (entered : EnteredAt history hash address place) :
    place < history.length := by
  rcases entered with ⟨start, lasting, -⟩
  exact lt_length_of_getElem? lasting.1

theorem Precedes.append (precedes : Precedes history hash first second)
    (another : ¬ served.Enters hash first) (another' : ¬ served.Enters hash second) :
    Precedes (history ++ [served]) hash first second := by
  rcases precedes with ⟨early, late, entered, entered', before⟩
  exact ⟨early, late, entered.append another, entered'.append another', before⟩

theorem not_enters_of_reply {time : Instant} {request : Request} {reply : Reply}
    (other : reply ≠ .announced .inserted) :
    ¬ Served.Enters ⟨time, request, reply⟩ hash address :=
  fun enters => other enters.2

/-- The live peers of every key stand in the order in which they were taken in. -/
structure Ranked (history : List Served) (now : Instant) (store : PeerStore) : Prop where
  entered : ∀ hash, ∀ address ∈ store.find now hash, ∃ place, EnteredAt history hash address place
  order : ∀ hash, (store.find now hash).Pairwise (Precedes history hash)

theorem ranked_new (maxPerHash maxTotal : Nat) (lifetime : Duration) (now : Instant) :
    Ranked [] now (new maxPerHash maxTotal lifetime) where
  entered := fun _ _ member => absurd member List.not_mem_nil
  order := fun _ => List.Pairwise.nil

/-- Peers that die leave the others in their order. -/
theorem Ranked.sublist (ranked : Ranked history now store)
    (fewer : ∀ hash, (after.find next hash).Sublist (store.find now hash)) :
    Ranked history next after where
  entered := fun hash address member => ranked.entered hash address ((fewer hash).subset member)
  order := fun hash => (ranked.order hash).sublist (fewer hash)

theorem Ranked.later (ranked : Ranked history now store) (order : now ≤ next) :
    Ranked history next store := by
  refine ranked.sublist fun hash => ?_
  have hLive := live_later store order hash
  change ((store.live next hash).map (·.address)).Sublist ((store.live now hash).map (·.address))
  rw [hLive]
  exact List.filter_sublist.map _

theorem Ranked.swept (ranked : Ranked history now store) (sweep : Swept store now after) :
    Ranked history now after := by
  refine ranked.sublist fun hash => ?_
  rw [sweep.find (Nat.le_refl now)]

/-- A request that takes no peer in changes no place. -/
theorem Ranked.append (ranked : Ranked history now store)
    (silent : ∀ hash address, ¬ served.Enters hash address) :
    Ranked (history ++ [served]) now store where
  entered := by
    intro hash address member
    rcases ranked.entered hash address member with ⟨place, entered⟩
    exact ⟨place, entered.append (silent hash address)⟩
  order := fun hash => (ranked.order hash).imp fun precedes =>
    precedes.append (silent hash _) (silent hash _)

/-- A peer that is taken in stands behind all others of its key. -/
theorem Ranked.inserted (ranked : Ranked history now store) (unknown : address ∉ store.find now hash)
    (here : (after.find now hash).Sublist (store.find now hash ++ [address]))
    (elsewhere : ∀ other ≠ hash, after.find now other = store.find now other) :
    Ranked (history ++ [⟨now, .announce hash address, .announced .inserted⟩]) now after := by
  generalize hServed : (⟨now, .announce hash address, .announced .inserted⟩ : Served) = served
  have hEnters : served.Enters hash address := by
    rw [← hServed]
    exact ⟨rfl, rfl⟩
  have hOthers : ∀ key, ∀ old ∈ store.find now key, ¬ served.Enters key old := by
    intro key old member enters
    rw [← hServed] at enters
    rcases Request.announce.inj enters.1 with ⟨rfl, rfl⟩
    exact unknown member
  have hEntered : ∀ key, ∀ old ∈ store.find now key,
      ∃ place, EnteredAt (history ++ [served]) key old place := by
    intro key old member
    rcases ranked.entered key old member with ⟨place, entered⟩
    exact ⟨place, entered.append (hOthers key old member)⟩
  have hOrder : ∀ key, (store.find now key).Pairwise (Precedes (history ++ [served]) key) :=
    fun key => (ranked.order key).imp_of_mem fun {first second} member member' precedes =>
      precedes.append (hOthers key first member) (hOthers key second member')
  constructor
  · intro key old member
    by_cases same : key = hash
    · subst same
      rcases List.mem_append.mp (here.subset member) with known | fresh
      · exact hEntered key old known
      · rw [List.mem_singleton.mp fresh]
        exact ⟨history.length, .new history hEnters⟩
    · rw [elsewhere key same] at member
      exact hEntered key old member
  · intro key
    by_cases same : key = hash
    · subst same
      refine List.Pairwise.sublist here (List.pairwise_append.mpr
        ⟨hOrder key, List.pairwise_singleton _ _, fun old member fresh isFresh => ?_⟩)
      rcases ranked.entered key old member with ⟨place, entered⟩
      rw [List.mem_singleton.mp isFresh]
      exact ⟨place, history.length, entered.append (hOthers key old member),
        .new history hEnters, entered.lt_length⟩
    · rw [elsewhere key same]
      exact hOrder key

theorem Ranked.serve (ranked : Ranked history now store) (tidy : store.Tidy) (request : Request) :
    Ranked (history ++ [⟨now, request, (store.serve now request).1⟩]) now
      (store.serve now request).2 := by
  cases request with
  | announce hash address =>
    have hAdded := added_add tidy now hash address
    unfold PeerStore.serve
    dsimp only
    generalize store.add now hash address = added at hAdded ⊢
    cases hAdded with
    | @refreshed later known _ _ live =>
      -- the times of the peers are not listed
      have hFind : ∀ other, later.find now other = store.find now other := by
        intro other
        change (later.live now other).map (·.address) = (store.live now other).map (·.address)
        rw [live]
        split
        next same => rw [addresses_renew, same]
        next => rfl
      have hLater : Ranked history now later := ranked.sublist fun other => by rw [hFind]
      exact hLater.append fun _ _ => not_enters_of_reply nofun
    | full _ _ sweep =>
      exact (ranked.swept sweep).append fun _ _ => not_enters_of_reply nofun
    | @inserted later unknown _ _ _ live =>
      refine ranked.inserted unknown ?_ ?_
      · change ((later.live now hash).map (·.address)).Sublist _
        rw [live, if_pos rfl]
        have hFewer := (List.filter_sublist (p := store.isLive now)
          (l := store.live now hash ++ [⟨address, now⟩])).map (·.address)
        rw [List.map_append] at hFewer
        exact hFewer
      · intro other another
        change (later.live now other).map (·.address) = (store.live now other).map (·.address)
        rw [live, if_neg another]
  | list hash => exact ranked.append fun _ _ => not_enters_of_reply nofun
  | expire =>
    exact (ranked.swept (swept_expire tidy now)).append fun _ _ => not_enters_of_reply nofun

theorem Ranked.run {start : Instant} (ranked : Ranked history start store)
    (recorded : Recorded history start store)
    (order : ∀ time ∈ requests.map (·.1) ++ [now], start ≤ time)
    (ordered : InOrder requests now) :
    Ranked (history ++ (store.run requests).1) now (store.run requests).2 := by
  induction requests generalizing history start store with
  | nil =>
    rw [PeerStore.run, List.append_nil]
    exact ranked.later (order now (List.mem_singleton_self now))
  | cons first rest ih =>
    rcases first with ⟨time, request⟩
    rcases List.pairwise_cons.mp ordered with ⟨before, later⟩
    have hLater := order time List.mem_cons_self
    have hRecorded := recorded.later hLater
    have hRest := ih ((ranked.later hLater).serve hRecorded.tidy request)
      (hRecorded.serve request) before later
    rw [List.append_assoc] at hRest
    exact hRest

/-! ## Times -/

/-- The times of a history never go back. -/
def Chronological (history : List Served) : Prop :=
  history.Pairwise fun earlier later => earlier.time ≤ later.time

theorem times_run (store : PeerStore) (requests : List (Instant × Request)) :
    (store.run requests).1.map (·.time) = requests.map (·.1) := by
  induction requests generalizing store with
  | nil => rfl
  | cons first rest ih => exact congrArg (first.1 :: ·) (ih _)

theorem chronological_run (store : PeerStore) (ordered : InOrder requests now) :
    Chronological (store.run requests).1 := by
  have hTimes := (List.pairwise_append.mp ordered).1
  rw [← times_run store, List.pairwise_map] at hTimes
  exact hTimes

theorem Chronological.time_le (chronological : Chronological history) {early late : Nat}
    {earlier later : Served} (here : history[early]? = some earlier)
    (there : history[late]? = some later) (order : early ≤ late) : earlier.time ≤ later.time := by
  rcases List.getElem?_eq_some_iff.mp here with ⟨_, rfl⟩
  rcases List.getElem?_eq_some_iff.mp there with ⟨_, rfl⟩
  rcases Nat.lt_or_eq_of_le order with before | rfl
  · exact List.pairwise_iff_getElem.mp chronological _ _ _ _ before
  · exact Nat.le_refl _

/-- The last announcement that was not refused stands somewhere in the history. -/
theorem lasts_of_announcedAt? {time : Instant}
    (announced : announcedAt? history hash address = some time) :
    ∃ place served, Lasts history place served (·.announces hash address = true) ∧
      served.announces hash address = true ∧ served.time = time := by
  induction history using List.reverseRecOn with
  | nil => cases announced
  | append_singleton history served ih =>
    rw [announcedAt?_append] at announced
    split at announced
    next announces =>
      exact ⟨history.length, served, lasts_append.mpr (.inl ⟨rfl, rfl⟩), announces,
        Option.some.inj announced⟩
    next silent =>
      rcases ih announced with ⟨place, start, lasting, announces, same⟩
      exact ⟨place, start, lasts_append.mpr (.inr ⟨lasting, silent⟩), announces, same⟩

theorem announces_iff :
    served.announces hash address = true ↔
      served.Enters hash address ∨ served.Renews hash address := by
  unfold Served.announces Served.Enters Served.Renews
  rw [Bool.and_eq_true, Bool.or_eq_true, decide_eq_true_eq, decide_eq_true_eq, decide_eq_true_eq,
    ← and_or_left]

/-- An announcement is no later than the last one. -/
theorem time_le_announcedAt? (chronological : Chronological history) {time : Instant}
    (announced : announcedAt? history hash address = some time) (here : history[place]? = some served)
    (announces : served.announces hash address = true) : served.time ≤ time := by
  rcases lasts_of_announcedAt? announced with ⟨last, start, lasting, -, rfl⟩
  exact chronological.time_le here lasting.1 (lasting.place_le here announces)

/-- A peer that was last announced when it was taken in was announced no later than those after it. -/
theorem Precedes.younger_iff (precedes : Precedes history hash first second)
    (chronological : Chronological history)
    (announced : ∃ time, announcedAt? history hash first = some time) :
    Younger history hash first second ↔
      ∃ served ∈ history, served.Renews hash first ∧
        ∃ early, announcedAt? history hash second = some early ∧ early < served.time := by
  constructor
  · rintro ⟨late, early, last, last', later⟩
    rcases lasts_of_announcedAt? last with ⟨place, served, lasting, announces, rfl⟩
    rcases announces_iff.mp announces with enters | renews
    · -- then the second peer was announced after the last announcement of the first one
      exfalso
      rcases precedes with ⟨entry, entry', ⟨start, entered, isEntry⟩, ⟨start', entered', isEntry'⟩, order⟩
      have hPlace : place ≤ entry := entered.place_le lasting.1 enters
      have hBefore := chronological.time_le lasting.1 entered'.1 (by omega)
      have hAfter := time_le_announcedAt? chronological last' entered'.1
        (announces_iff.mpr (.inl isEntry'))
      exact Nat.lt_irrefl _ (Nat.lt_of_lt_of_le later (Nat.le_trans hBefore hAfter))
    · exact ⟨served, List.mem_of_getElem? lasting.1, renews, early, last', later⟩
  · rintro ⟨served, member, renews, early, last', later⟩
    rcases announced with ⟨late, last⟩
    rcases List.getElem?_of_mem member with ⟨place, here⟩
    have hBefore := time_le_announcedAt? chronological last here (announces_iff.mpr (.inr renews))
    exact ⟨late, early, last, last', Nat.lt_of_lt_of_le later hBefore⟩

/-- Whatever a store is asked, in order, the live peers of every key are listed in the order in which
they were taken in. -/
theorem arranged_run (maxPerHash maxTotal : Nat) (lifetime : Duration)
    (requests : List (Instant × Request)) (now : Instant) (ordered : InOrder requests now)
    (hash : InfoHash) :
    Arranged ((new maxPerHash maxTotal lifetime).run requests).1 lifetime now hash
      (((new maxPerHash maxTotal lifetime).run requests).2.find now hash) := by
  have hStart := Recorded.start maxPerHash maxTotal lifetime 0
  have hOrder : ∀ time ∈ requests.map (·.1) ++ [now], 0 ≤ time := fun time _ => Nat.zero_le time
  rcases hStart.run hOrder ordered with ⟨recorded, limits⟩
  have hRanked := (ranked_new maxPerHash maxTotal lifetime 0).run hStart hOrder ordered
  have hChronological := chronological_run (new maxPerHash maxTotal lifetime) ordered
  rw [List.nil_append] at recorded hRanked
  generalize (new maxPerHash maxTotal lifetime).run requests = served at *
  have hLifetime : served.2.lifetime = lifetime := congrArg (fun limits => limits.2.2) limits
  have hMembers := recorded.mem_find hash
  refine ⟨hLifetime ▸ hMembers, hRanked.order hash, ?_⟩
  refine (hRanked.order hash).imp_of_mem fun {first second} member _ precedes => ?_
  refine precedes.younger_iff hChronological ?_
  rcases (hMembers first).mp member with ⟨time, announced, -⟩
  exact ⟨time, announced⟩

/-- Two peers of a key, the first of which is announced again. -/
def renewals : List (Instant × Request) :=
  [(0, .announce .zero ⟨.v4 1, 1⟩), (1, .announce .zero ⟨.v4 2, 2⟩),
    (2, .announce .zero ⟨.v4 1, 1⟩)]

theorem arranged_renewals :
    InOrder renewals 2 ∧ ((new 2 2 10).run renewals).2.find 2 .zero = [⟨.v4 1, 1⟩, ⟨.v4 2, 2⟩] ∧
      Arranged ((new 2 2 10).run renewals).1 10 2 .zero
        (((new 2 2 10).run renewals).2.find 2 .zero) := by
  have hOrdered : InOrder renewals 2 := by
    unfold InOrder
    decide
  exact ⟨hOrdered, by decide +kernel, arranged_run 2 2 10 renewals 2 hOrdered .zero⟩

/-- A peer that was announced again is listed before one that was last announced earlier. -/
theorem find_renewals_not_oldest_first :
    InOrder renewals 2 ∧
      ((new 2 2 10).run renewals).2.find 2 .zero = [⟨.v4 1, 1⟩, ⟨.v4 2, 2⟩] ∧
      announcedAt? ((new 2 2 10).run renewals).1 .zero ⟨.v4 1, 1⟩ = some 2 ∧
      announcedAt? ((new 2 2 10).run renewals).1 .zero ⟨.v4 2, 2⟩ = some 1 := by
  refine ⟨?_, ?_, ?_, ?_⟩
  · unfold InOrder
    decide
  · decide +kernel
  · decide +kernel
  · decide +kernel

end PeerStore
end Kademlia

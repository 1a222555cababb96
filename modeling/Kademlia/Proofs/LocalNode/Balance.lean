import Kademlia.LocalNode.Searching
import Kademlia.Proofs.LocalNode.Announcing
import Kademlia.Proofs.LocalNode.Ledger
import Kademlia.Proofs.Transactions

namespace Kademlia
namespace LocalNode

/-!
The books of a node: what it has on record about its queries, in four places.  They are in balance
if the queries that wait, their time-outs, the lookups and the announcements agree with each other.

Handling an event puts the books out of balance in a few ways, which are named here (`stale`,
`loose`, `Driven`, `Wrapping`), and every operation is seen to lead from one of them to another.
The statement leaves out the case that a number is used again too early (`InBalance`), so that
operations can be put together without regard to it.
-/

/-- What a node has on record about its queries. -/
structure Books where
  waiting : List Transaction
  timer : Timer
  timeout : Duration
  lookups : List (LookupId × ActiveLookup)
  announces : List (LookupId × ActiveAnnounce)
  completed : List LookupId
  queued : List LookupRequest
  lookupCount : Nat
  reused : Bool

/-- The books of a node. -/
def books (n : LocalNode) : Books where
  waiting := n.transactions.pending
  timer := n.timer
  timeout := n.settings.queryTimeout
  lookups := n.lookups
  announces := n.announces
  completed := n.completed
  queued := n.queued
  lookupCount := n.lookupCount
  reused := n.reused

namespace Books

def lookup? (b : Books) (k : LookupId) : Option Lookup :=
  (b.lookups.lookup k).map (·.lookup)

def announce? (b : Books) (k : LookupId) : Option Announce :=
  (b.announces.lookup k).map (·.announce)

/-- The books after a query has been sent. -/
def send (b : Books) (t : Transaction) : Books :=
  { b with
    waiting := b.waiting ++ [t]
    timer := b.timer.scheduleAt (t.issued + b.timeout) (.queryTimeout t.id) }

/-- The books after a lookup has been added. -/
def launch (b : Books) (active : ActiveLookup) : Books :=
  { b with
    lookupCount := b.lookupCount + 1
    lookups := b.lookups ++ [(⟨b.lookupCount⟩, active)] }

/-- The books after a lookup was found to be done. -/
def complete (b : Books) (k : LookupId) : Books :=
  { b with completed := k :: b.completed }

/-- The books after a lookup has changed. -/
def changeLookup (b : Books) (k : LookupId) (change : Lookup → Lookup) : Books :=
  { b with
    lookups := modifyFirst (·.1 = k)
      (fun (k, active) => (k, { active with lookup := change active.lookup })) b.lookups }

/-- The books after an announcement has changed. -/
def changeAnnounce (b : Books) (k : LookupId) (change : Announce → Announce) : Books :=
  { b with
    announces := modifyFirst (·.1 = k)
      (fun (k, active) => (k, { active with announce := change active.announce })) b.announces }

end Books

/-- What is about to be driven on: a lookup for some steps, or an announcement for some rounds after
the nodes that it has chosen are told. -/
inductive Driven where
  | nothing
  | lookup (id : LookupId) (steps : Nat)
  | announce (id : LookupId) (rounds : Nat) (picked : List Contact)

namespace Driven

def search : Driven → Option (LookupId × Nat)
  | lookup id steps => some (id, steps)
  | _ => none

def announcement : Driven → Option (LookupId × Nat × List Contact)
  | announce id rounds picked => some (id, rounds, picked)
  | _ => none

end Driven

/-- How far the wrapping up of lookups has come. -/
structure Wrapping where
  /-- The lookup that was just taken out, the number of which an announcement may take over, and the
  nodes that are then to be told. -/
  retired : Option (LookupId × List Contact) := none
  /-- How many lookups are still to be started or driven on. -/
  ahead : Nat := 0
  /-- How many lookups can be done before all are wrapped up, if that is of interest. -/
  work : Option Nat := none

/-- Lookups and announcements have numbers of their own, which were given out before. -/
structure Numbered (w : Wrapping) (b : Books) : Prop where
  lookups : (b.lookups.map (·.1)).Nodup
  announces : (b.announces.map (·.1)).Nodup
  lookups_below : ∀ k ∈ b.lookups.map (·.1), k.number < b.lookupCount
  announces_below : ∀ k ∈ b.announces.map (·.1), k.number < b.lookupCount
  completed_below : ∀ k ∈ b.completed, k.number < b.lookupCount
  apart : ∀ k ∈ b.lookups.map (·.1), k ∉ b.announces.map (·.1)
  retired : ∀ k contacts, w.retired = some (k, contacts) → contacts.Nodup ∧
    k.number < b.lookupCount ∧ k ∉ b.lookups.map (·.1) ∧ k ∉ b.announces.map (·.1)
  work : ∀ limit, w.work = some limit → b.completed.length + b.queued.length + w.ahead ≤ limit

/-- The queries that are owed an answer, or word that there will be none. -/
def Owed (stale loose : List Transaction) (b : Books) (t : Transaction) : Prop :=
  t ∈ b.waiting ++ stale ++ loose

/-- The four places agree, but for what is named. -/
structure Balanced (stale loose : List Transaction) (driven : Driven) (w : Wrapping) (b : Books) :
    Prop where
  ledger : Ledger stale loose b.waiting b.timer b.timeout
  searches : Searches (Owed stale loose b) driven.search b.lookup? b.completed
  announcing : Announcing (Owed stale loose b) driven.announcement b.announce?
  numbered : Numbered w b

/-- The books are in balance, but for what is named, unless a number was used again too early. -/
def InBalance (stale loose : List Transaction) (driven : Driven) (w : Wrapping) (n : LocalNode) :
    Prop :=
  n.reused = false → Balanced stale loose driven w n.books

variable {stale loose : List Transaction} {driven : Driven} {w : Wrapping} {n m : LocalNode}
  {b c : Books} {k : LookupId} {l : Lookup} {a : Announce} {steps rounds : Nat}
  {env : Surroundings} {t : Transaction} {contact : Contact} {picked : List Contact}

theorem InBalance.congr (balance : InBalance stale loose driven w n) (same : m.books = n.books) :
    InBalance stale loose driven w m := by
  intro once
  have hOnce : n.books.reused = false := by
    rw [← same]
    exact once
  rw [same]
  exact balance hOnce

/-! ## What is not on record -/

theorem books_emit (n : LocalNode) (effect : Effect) : (n.emit effect).books = n.books :=
  rfl

theorem books_setState (n : LocalNode) (state : ConnectionState) :
    (n.setState state).books = n.books := by
  unfold setState
  split <;> rfl

theorem books_endStream (n : LocalNode) (stream : Option StreamId) :
    (n.endStream stream).books = n.books := by
  cases stream <;> rfl

theorem books_reportPeer (target : InfoHash) (sink : Sink) (n : LocalNode) (peer : Address) :
    (reportPeer target sink n peer).books = n.books := by
  unfold reportPeer
  split
  · rfl
  · cases sink <;> rfl

theorem books_modifyLookup (n : LocalNode) (k : LookupId) (change : Lookup → Lookup) :
    (n.modifyLookup k change).books = n.books.changeLookup k change :=
  rfl

theorem books_modifyAnnounce (n : LocalNode) (k : LookupId) (change : Announce → Announce) :
    (n.modifyAnnounce k change).books = n.books.changeAnnounce k change :=
  rfl

/-! ## The tables -/

theorem updates_modifyFirst {α β : Type} {items : List (LookupId × α)} {entry : α}
    (project : α → β) (change : α → α) (found : items.lookup k = some entry) :
    Updates (fun k => (items.lookup k).map project) k (some (project (change entry)))
      (fun other => ((modifyFirst (·.1 = k) (fun (k, entry) => (k, change entry)) items).lookup
        other).map project) := by
  intro other
  dsimp only
  rw [lookup_modifyFirst, found]
  split <;> rfl

theorem updates_changeLookup (found : b.lookup? k = some l) (change : Lookup → Lookup) :
    Updates b.lookup? k (some (change l)) (b.changeLookup k change).lookup? := by
  rcases Option.map_eq_some_iff.mp found with ⟨active, entered, rfl⟩
  exact updates_modifyFirst ActiveLookup.lookup
    (fun active => { active with lookup := change active.lookup }) entered

theorem updates_changeAnnounce (found : b.announce? k = some a) (change : Announce → Announce) :
    Updates b.announce? k (some (change a)) (b.changeAnnounce k change).announce? := by
  rcases Option.map_eq_some_iff.mp found with ⟨active, entered, rfl⟩
  exact updates_modifyFirst ActiveAnnounce.announce
    (fun active => { active with announce := change active.announce }) entered

theorem lookup?_of_entered {active : ActiveLookup} (entered : n.lookups.lookup k = some active) :
    n.books.lookup? k = some active.lookup :=
  congrArg (Option.map ActiveLookup.lookup) entered

theorem announce?_of_entered {active : ActiveAnnounce}
    (entered : n.announces.lookup k = some active) :
    n.books.announce? k = some active.announce :=
  congrArg (Option.map ActiveAnnounce.announce) entered

theorem not_lookup? (absent : n.lookups.lookup k = none) : n.books.lookup? k ≠ some l := by
  have hNone : n.books.lookup? k = none := congrArg (Option.map ActiveLookup.lookup) absent
  rw [hNone]
  exact nofun

theorem not_announce? (absent : n.announces.lookup k = none) : n.books.announce? k ≠ some a := by
  have hNone : n.books.announce? k = none := congrArg (Option.map ActiveAnnounce.announce) absent
  rw [hNone]
  exact nofun

/-- The numbers depend on a part of the books only. -/
theorem Numbered.congr (numbered : Numbered w b)
    (lookups : c.lookups.map (·.1) = b.lookups.map (·.1))
    (announces : c.announces.map (·.1) = b.announces.map (·.1))
    (completed : c.completed = b.completed) (queued : c.queued = b.queued)
    (lookupCount : c.lookupCount = b.lookupCount) : Numbered w c := by
  refine ⟨?_, ?_, ?_, ?_, ?_, ?_, ?_, ?_⟩
  · rw [lookups]
    exact numbered.lookups
  · rw [announces]
    exact numbered.announces
  · rw [lookups, lookupCount]
    exact numbered.lookups_below
  · rw [announces, lookupCount]
    exact numbered.announces_below
  · rw [completed, lookupCount]
    exact numbered.completed_below
  · rw [lookups, announces]
    exact numbered.apart
  · rw [lookups, announces, lookupCount]
    exact numbered.retired
  · rw [completed, queued]
    exact numbered.work

theorem Numbered.changeLookup (numbered : Numbered w b) (change : Lookup → Lookup) :
    Numbered w (b.changeLookup k change) :=
  numbered.congr (map_modifyFirst fun _ _ => rfl) rfl rfl rfl rfl

theorem Numbered.changeAnnounce (numbered : Numbered w b) (change : Announce → Announce) :
    Numbered w (b.changeAnnounce k change) :=
  numbered.congr rfl (map_modifyFirst fun _ _ => rfl) rfl rfl rfl

theorem Numbered.send (numbered : Numbered w b) (t : Transaction) : Numbered w (b.send t) :=
  numbered.congr rfl rfl rfl rfl rfl

theorem lookup_mem_keys (found : b.lookup? k = some l) : k ∈ b.lookups.map (·.1) := by
  rcases Option.map_eq_some_iff.mp found with ⟨active, entered, -⟩
  exact mem_keys_iff.mpr ⟨active, entered⟩

theorem announce_mem_keys (found : b.announce? k = some a) : k ∈ b.announces.map (·.1) := by
  rcases Option.map_eq_some_iff.mp found with ⟨active, entered, -⟩
  exact mem_keys_iff.mpr ⟨active, entered⟩

theorem lookup?_eq_none (absent : k ∉ b.lookups.map (·.1)) : b.lookup? k = none := by
  cases found : b.lookup? k with
  | none => rfl
  | some l => exact absurd (lookup_mem_keys found) absent

/-- The next number is new. -/
theorem Numbered.absent (numbered : Numbered w b) : ⟨b.lookupCount⟩ ∉ b.lookups.map (·.1) :=
  fun known => Nat.lt_irrefl _ (numbered.lookups_below _ known)

theorem updates_launch (numbered : Numbered w b) (active : ActiveLookup) :
    Updates b.lookup? ⟨b.lookupCount⟩ (some active.lookup) (b.launch active).lookup? := by
  intro other
  have hAbsent := lookup?_eq_none numbered.absent
  unfold Books.lookup? at hAbsent
  unfold Books.lookup? Books.launch
  rw [lookup_append_singleton _ (Option.map_eq_none_iff.mp hAbsent)]
  split <;> rfl

theorem Numbered.launch (numbered : Numbered w b) (active : ActiveLookup) :
    Numbered w (b.launch active) := by
  have hKeys : (b.launch active).lookups.map (·.1) =
      b.lookups.map (·.1) ++ [⟨b.lookupCount⟩] := by
    unfold Books.launch
    rw [List.map_append, List.map_singleton]
  have hCount : (b.launch active).lookupCount = b.lookupCount + 1 := rfl
  refine ⟨?_, numbered.announces, ?_, ?_, ?_, ?_, ?_, numbered.work⟩
  · exact nodup_keys_append numbered.lookups numbered.absent
  · intro k known
    rw [hKeys] at known
    rcases List.mem_append.mp known with old | new
    · exact Nat.lt_succ_of_lt (numbered.lookups_below k old)
    · rw [List.mem_singleton.mp new]
      exact Nat.lt_succ_self _
  · exact fun k known => Nat.lt_succ_of_lt (numbered.announces_below k known)
  · exact fun k member => Nat.lt_succ_of_lt (numbered.completed_below k member)
  · intro k known announced
    rw [hKeys] at known
    rcases List.mem_append.mp known with old | new
    · exact numbered.apart k old announced
    · rw [List.mem_singleton.mp new] at announced
      exact Nat.lt_irrefl _ (numbered.announces_below _ announced)
  · intro k contacts retired
    rcases numbered.retired k contacts retired with ⟨distinct, below, absent, unannounced⟩
    refine ⟨distinct, Nat.lt_succ_of_lt below, ?_, unannounced⟩
    rw [hKeys]
    intro known
    rcases List.mem_append.mp known with old | new
    · exact absent old
    · rw [List.mem_singleton.mp new] at below
      exact Nat.lt_irrefl _ below

theorem Numbered.fewer {ahead : Nat} (numbered : Numbered w b) (fewer : ahead ≤ w.ahead) :
    Numbered { w with ahead } b := by
  refine { numbered with work := ?_ }
  intro limit limited
  have hWork := numbered.work limit limited
  dsimp only
  omega

/-- If nobody wants to know how many lookups can be done, any number of them may be ahead. -/
theorem InBalance.unlimited {ahead : Nat} (balance : InBalance stale loose driven w n) :
    InBalance stale loose driven { w with ahead, work := none } n := by
  intro once
  have hBalanced := balance once
  exact ⟨hBalanced.ledger, hBalanced.searches, hBalanced.announcing,
    { hBalanced.numbered with work := nofun }⟩

/-- One of the lookups that are ahead is done. -/
theorem Numbered.complete (numbered : Numbered { w with ahead := w.ahead + 1 } b)
    (known : k ∈ b.lookups.map (·.1)) : Numbered w (b.complete k) := by
  refine ⟨numbered.lookups, numbered.announces, numbered.lookups_below, numbered.announces_below,
    ?_, numbered.apart, numbered.retired, ?_⟩
  · intro other member
    rcases List.mem_cons.mp member with rfl | before
    · exact numbered.lookups_below other known
    · exact numbered.completed_below other before
  · intro limit limited
    have hWork := numbered.work limit limited
    change (k :: b.completed).length + b.queued.length + w.ahead ≤ limit
    dsimp only at hWork
    rw [List.length_cons]
    omega

/-! ## Sending -/

/-- What can come of sending a query. -/
inductive Sent (n : LocalNode) (destination : Destination) (nodeId : Option NodeId) (query : Query)
    (owner : Owner) : Option TransactionId × LocalNode → Prop
  | lost {m : LocalNode} : (m.reused = false → n.reused = false ∧ m.books = n.books) →
    Sent n destination nodeId query owner (none, m)
  | out {m : LocalNode} (t : Transaction) : t.destination = destination → t.nodeId = nodeId →
    t.query = query → t.owner = owner →
    (m.reused = false →
      n.reused = false ∧ n.timer.hasTimeout t.id = false ∧ m.books = n.books.send t) →
    Sent n destination nodeId query owner (some t.id, m)

theorem sendQuery_cases (env : Surroundings) (n : LocalNode) (destination : Destination)
    (nodeId : Option NodeId) (query : Query) (owner : Owner) :
    Sent n destination nodeId query owner (n.sendQuery env destination nodeId query owner) := by
  have hReused : (n.reused || n.inUse n.transactions.nextId) = false →
      n.books.reused = (n.reused || n.inUse n.transactions.nextId) := by
    intro once
    rw [once]
    exact (Bool.or_eq_false_iff.mp once).1
  unfold LocalNode.sendQuery Transactions.draw LocalNode.send
  dsimp only
  split
  · refine .out ⟨n.transactions.nextId, query, destination, nodeId, owner, env.now⟩
      rfl rfl rfl rfl ?_
    intro once
    rcases Bool.or_eq_false_iff.mp once with ⟨before, unused⟩
    rcases Bool.or_eq_false_iff.mp unused with ⟨unknown, untimed⟩
    refine ⟨before, untimed, ?_⟩
    have hErase := Transactions.filter_unknown
      (Option.not_isSome_iff_eq_none.mp (Bool.eq_false_iff.mp unknown))
    generalize hSent : (⟨n.transactions.nextId, query, destination, nodeId, owner, env.now⟩ :
      Transaction) = t
    calc _ = ({ n.books.send t with
                waiting := n.transactions.pending.filter (·.id ≠ n.transactions.nextId) ++ [t]
                reused := n.reused || n.inUse n.transactions.nextId } : Books) := by
            rw [← hSent]
            rfl
      _ = n.books.send t := by
            rw [hErase, ← hReused once]
            rfl
  · refine .lost fun once => ⟨(Bool.or_eq_false_iff.mp once).1, ?_⟩
    calc _ = ({ n.books with reused := n.reused || n.inUse n.transactions.nextId } : Books) := rfl
      _ = n.books := by rw [← hReused once]

theorem owed_send {other : Transaction} :
    Owed stale loose (b.send t) other ↔ Owed stale loose b other ∨ other = t := by
  have hPerm : (b.waiting ++ [t] ++ stale ++ loose).Perm (t :: (b.waiting ++ stale ++ loose)) := by
    rw [List.append_assoc, List.append_assoc, List.append_assoc]
    exact List.perm_middle
  exact (hPerm.mem_iff.trans List.mem_cons).trans or_comm

/-! ## Settling -/

theorem owed_loose : Owed stale [t] b t :=
  List.mem_append_right _ (List.mem_singleton_self t)

theorem owed_settled {timer : Timer} {timeout : Duration} {other : Transaction}
    (ledger : Ledger stale [t] b.waiting timer timeout) :
    Owed stale [] b other ↔ Owed stale [t] b other ∧ other ≠ t := by
  unfold Owed
  rw [List.append_nil]
  constructor
  · intro owes
    refine ⟨List.mem_append_left _ owes, ?_⟩
    rintro rfl
    have hDistinct := ledger.distinct
    rw [List.map_append] at hDistinct
    have hApart := (List.nodup_append.mp hDistinct).2.2 other.id (List.mem_map_of_mem owes)
    exact hApart other.id (List.mem_singleton_self _) rfl
  · rintro ⟨owes, different⟩
    rcases List.mem_append.mp owes with before | here
    · exact before
    · exact absurd (List.mem_singleton.mp here) different

/-! ## Queries of nobody in particular -/

/-- A query that belongs to no lookup and no announcement. -/
def IsFree (owner : Owner) : Prop :=
  (∀ k, owner ≠ .lookup k) ∧ ∀ k, owner ≠ .announce k

theorem Balanced.freeSent (balanced : Balanced stale [] driven w b) (free : IsFree t.owner)
    (unused : b.timer.hasTimeout t.id = false) : Balanced stale [] driven w (b.send t) where
  ledger := balanced.ledger.send unused
  searches := balanced.searches.add (fun _ => owed_send) free.1
  announcing := balanced.announcing.add (fun _ => owed_send) free.2
  numbered := balanced.numbered.send t

theorem Balanced.freeSettled (balanced : Balanced stale [t] driven w b) (free : IsFree t.owner) :
    Balanced stale [] driven w b where
  ledger := balanced.ledger.settle
  searches := balanced.searches.drop (fun _ => owed_settled balanced.ledger) free.1
  announcing := balanced.announcing.drop (fun _ => owed_settled balanced.ledger) free.2
  numbered := balanced.numbered

theorem InBalance.sendFree {destination : Destination} {nodeId : Option NodeId} {query : Query}
    {owner : Owner} (balance : InBalance stale [] driven w n) (free : IsFree owner) :
    InBalance stale [] driven w (n.sendQuery env destination nodeId query owner).2 := by
  have hSent := sendQuery_cases env n destination nodeId query owner
  generalize n.sendQuery env destination nodeId query owner = sent at hSent ⊢
  cases hSent with
  | lost lost =>
    intro once
    rcases lost once with ⟨before, same⟩
    rw [same]
    exact balance before
  | out t _ _ _ same_owner sent =>
    intro once
    rcases sent once with ⟨before, unused, same⟩
    rw [same]
    rw [← same_owner] at free
    exact (balance before).freeSent free unused

end LocalNode
end Kademlia

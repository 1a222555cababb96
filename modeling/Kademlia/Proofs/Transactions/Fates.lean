import Kademlia.Proofs.History
import Kademlia.Proofs.Transactions
import Mathlib.Data.Nat.Find
import Mathlib.Logic.ExistsUnique

namespace Kademlia
namespace Transactions

/-!
# What becomes of a query

Queries are recorded under two octets, in any order and under whatever octets the caller gives, and
they are taken out by an answer or because they have waited too long.  Each query that was recorded
has exactly one fate: it still waits, or it was handed out, or another query was recorded over it.
Which one it is can be told from the history of the calls, and so can every answer.

Two queries may be the same in all that is remembered of them.  They are told apart by the place in
the history at which they were recorded.
-/

/-- What the queries can be called for.  A query gets the number of the octets under which it is
recorded. -/
inductive Call where
  | draw
  | record (bytes : Bytes) (t : Transaction)
  | resolve (bytes : Bytes)
  /-- Takes out a query, but tells no more of it than what it asked for. -/
  | classify (bytes : Bytes)
  | expire (id : TransactionId) (timeout : Duration)
  /-- Takes out all that have waited too long, in the order of a comparison. -/
  | expireAll (arrangement : Arrangement) (timeout : Duration)
  | advance (time : Duration)

/-- What has come of a call. -/
inductive Event where
  | drawn (id : TransactionId)
  | recorded (bytes : Bytes) (t : Transaction)
  | ignored (bytes : Bytes)
  | resolved (bytes : Bytes) (found : Option Transaction)
  | classified (bytes : Bytes) (found : Option Transaction) (method : Option Method)
  | expired (id : TransactionId) (timeout : Duration) (now : Instant) (found : Option Transaction)
  | swept (timeout : Duration) (now : Instant) (found : List Transaction)

/-- Takes out the query under some octets. -/
def takeUnder (ts : Transactions) (bytes : Bytes) : Option Transaction × Transactions :=
  match TransactionId.ofBytes? bytes with
  | some id => ts.take id
  | none => (none, ts)

/-- One call, with what has come of it and the time after it. -/
def call (now : Instant) (ts : Transactions) : Call → Option Event × Instant × Transactions
  | .draw => (some (.drawn ts.draw.1), now, ts.draw.2)
  | .record bytes t =>
    match TransactionId.ofBytes? bytes with
    | some id => (some (.recorded bytes { t with id }), now, ts.record { t with id })
    | none => (some (.ignored bytes), now, ts)
  | .resolve bytes => (some (.resolved bytes (ts.takeUnder bytes).1), now, (ts.takeUnder bytes).2)
  | .classify bytes =>
    let found := (ts.takeUnder bytes).1
    (some (.classified bytes found (found.bind (·.query.method?))), now, (ts.takeUnder bytes).2)
  | .expire id timeout =>
    (some (.expired id timeout now (ts.expire now id timeout).1), now, (ts.expire now id timeout).2)
  | .expireAll arrangement timeout =>
    (some (.swept timeout now (ts.expireAll arrangement now timeout).1), now,
      (ts.expireAll arrangement now timeout).2)
  | .advance time => (none, now + time, ts)

/-- One more call after a history. -/
def log (past : List Event × Instant × Transactions) (c : Call) :
    List Event × Instant × Transactions :=
  (past.1 ++ (past.2.2.call past.2.1 c).1.toList, (past.2.2.call past.2.1 c).2)

/-- The history of some calls, and what becomes of the clock and the queries.  At first none waits,
and a number is given from which the others are counted. -/
def run (first : TransactionId) (now : Instant) (calls : List Call) :
    List Event × Instant × Transactions :=
  calls.foldl log ([], now, { nextId := first })

/-! ## What waits by a history -/

/-- The number that was drawn, if one was. -/
def Event.drawn? : Event → Option TransactionId
  | .drawn id => some id
  | _ => none

/-- The query that was recorded, if one was. -/
def Event.recorded? : Event → Option Transaction
  | .recorded _ t => some t
  | _ => none

/-- The numbers that were drawn. -/
def draws (history : List Event) : List TransactionId :=
  history.filterMap Event.drawn?

/-- The queries that were handed out. -/
def Event.handed : Event → List Transaction
  | .resolved _ found => found.toList
  | .classified _ found _ => found.toList
  | .expired _ _ _ found => found.toList
  | .swept _ _ found => found
  | _ => []

/-- Whether an event takes out what waits under a number, or puts another query in its place. -/
def Event.Ends (id : TransactionId) (event : Event) : Prop :=
  (∃ t ∈ event.handed, t.id = id) ∨ ∃ bytes t, event = .recorded bytes t ∧ t.id = id

/-- The query was recorded at the place, and since then it was neither handed out nor overwritten. -/
def Waits (history : List Event) (place : Nat) (t : Transaction) : Prop :=
  Lasts history place (.recorded t.id.toBytes t) (Event.Ends t.id)

/-- What was found under some octets is the query that waits under them, if one does. -/
def Finds (history : List Event) (bytes : Bytes) (found : Option Transaction) : Prop :=
  ∀ t, found = some t ↔ t.id.toBytes = bytes ∧ ∃ place, Waits history place t

/-- What an event has to be after those before it. -/
def Fits (first : TransactionId) (history : List Event) : Event → Prop
  | .drawn id => id.number = first.number + UInt16.ofNat (draws history).length
  | .recorded bytes t => t.id.toBytes = bytes
  | .ignored bytes => bytes.length ≠ 2
  | .resolved bytes found => Finds history bytes found
  | .classified bytes found method =>
    Finds history bytes found ∧ method = found.bind (·.query.method?)
  | .expired id timeout now found =>
    ∀ t, found = some t ↔ t.id = id ∧ (∃ place, Waits history place t) ∧ timeout ≤ now - t.issued
  | .swept timeout now found =>
    (found.map (·.id)).Nodup ∧
      ∀ t, t ∈ found ↔ (∃ place, Waits history place t) ∧ timeout ≤ now - t.issued

/-- What can become of a query. -/
inductive Fate where
  | waiting
  | handedOut (place : Nat)
  | overwritten (place : Nat)

/-- What has become of the query that was recorded at a place. -/
def Meets (history : List Event) (place : Nat) (t : Transaction) : Fate → Prop
  | .waiting => Waits history place t
  | .handedOut later =>
    Waits (history.take later) place t ∧ ∃ event, history[later]? = some event ∧ t ∈ event.handed
  | .overwritten later =>
    Waits (history.take later) place t ∧
      ∃ bytes other, history[later]? = some (.recorded bytes other) ∧ other.id = t.id

variable {arrangement : Arrangement} {ts next : Transactions}
  {first id : TransactionId} {now : Instant} {timeout : Duration}
  {history : List Event} {event : Event} {place later : Nat} {t other : Transaction} {bytes : Bytes}
  {found : Option Transaction}

theorem waits_append : Waits (history ++ [event]) place t ↔
    (place = history.length ∧ event = .recorded t.id.toBytes t) ∨
      Waits history place t ∧ ¬ event.Ends t.id :=
  lasts_append

/-- Under one number, no more than one query waits. -/
theorem place_eq_of_waits {elsewhere : Nat} (waits : Waits history place t)
    (waits_too : Waits history elsewhere other) (same : t.id = other.id) : place = elsewhere := by
  have hOver : ∀ {a b : Nat} {x y : Transaction}, Waits history a x → Waits history b y →
      x.id = y.id → ¬ a < b := by
    intro a b x y first second together before
    exact first.2 b before _ second.1 (.inr ⟨_, y, rfl, together.symm⟩)
  exact Nat.le_antisymm (Nat.le_of_not_lt (hOver waits_too waits same.symm))
    (Nat.le_of_not_lt (hOver waits waits_too same))

theorem eq_of_waits {elsewhere : Nat} (waits : Waits history place t)
    (waits_too : Waits history elsewhere other) (same : t.id = other.id) : t = other := by
  have hPlace := place_eq_of_waits waits waits_too same
  have hHere := waits.1
  rw [hPlace, waits_too.1] at hHere
  exact (Event.recorded.inj (Option.some.inj hHere)).2.symm

theorem waits_of_handed (fits : Fits first history event) (handed : t ∈ event.handed) :
    ∃ place, Waits history place t := by
  cases event with
  | resolved bytes found => exact ((fits t).mp (Option.mem_toList.mp handed)).2
  | classified bytes found method => exact ((fits.1 t).mp (Option.mem_toList.mp handed)).2
  | expired id timeout now found => exact ((fits t).mp (Option.mem_toList.mp handed)).2.1
  | swept timeout now found => exact ((fits.2 t).mp handed).1
  | drawn => cases handed
  | recorded => cases handed
  | ignored => cases handed

/-! ## Fates -/

/-- The query waits until an event that takes it out or puts another in its place. -/
def EndsAt (history : List Event) (place : Nat) (t : Transaction) (later : Nat) : Prop :=
  Waits (history.take later) place t ∧ ∃ event, history[later]? = some event ∧ event.Ends t.id

theorem EndsAt.place_lt (ends : EndsAt history place t later) : place < later := by
  have hHere := ends.1.1
  rw [List.getElem?_take] at hHere
  split at hHere
  next before => exact before
  next => cases hHere

theorem EndsAt.not_waits (ends : EndsAt history place t later) : ¬ Waits history place t := by
  intro waits
  rcases ends.2 with ⟨event, here, ended⟩
  exact waits.2 later ends.place_lt event here ended

theorem EndsAt.eq {again : Nat} (ends : EndsAt history place t later)
    (ends_too : EndsAt history place t again) : later = again := by
  have hFirst : ∀ {a b : Nat}, EndsAt history place t a → EndsAt history place t b → ¬ a < b := by
    intro a b first second before
    rcases first.2 with ⟨event, here, ended⟩
    refine second.1.2 a first.place_lt event ?_ ended
    rw [List.getElem?_take, if_pos before]
    exact here
  exact Nat.le_antisymm (Nat.le_of_not_lt (hFirst ends_too ends))
    (Nat.le_of_not_lt (hFirst ends ends_too))

theorem endsAt_of_handedOut (meets : Meets history place t (.handedOut later)) :
    EndsAt history place t later := by
  rcases meets with ⟨waits, event, here, handed⟩
  exact ⟨waits, event, here, .inl ⟨t, handed, rfl⟩⟩

theorem endsAt_of_overwritten (meets : Meets history place t (.overwritten later)) :
    EndsAt history place t later := by
  rcases meets with ⟨waits, bytes, other, here, same⟩
  exact ⟨waits, _, here, .inr ⟨bytes, other, rfl, same⟩⟩

/-- What is handed out is not recorded by the same event. -/
theorem not_overwritten_of_handedOut (meets : Meets history place t (.handedOut later)) :
    ¬ Meets history place t (.overwritten later) := by
  rcases meets with ⟨-, event, here, handed⟩
  rintro ⟨-, bytes, other, there, -⟩
  rw [here] at there
  rw [Option.some.inj there] at handed
  cases handed

theorem fate_unique {a b : Fate} (meets : Meets history place t a)
    (meets_too : Meets history place t b) : a = b := by
  cases a with
  | waiting =>
    cases b with
    | waiting => rfl
    | handedOut later => exact absurd meets (endsAt_of_handedOut meets_too).not_waits
    | overwritten later => exact absurd meets (endsAt_of_overwritten meets_too).not_waits
  | handedOut first =>
    have hFirst := endsAt_of_handedOut meets
    cases b with
    | waiting => exact absurd meets_too hFirst.not_waits
    | handedOut later => rw [hFirst.eq (endsAt_of_handedOut meets_too)]
    | overwritten later =>
      rw [hFirst.eq (endsAt_of_overwritten meets_too)] at meets
      exact absurd meets_too (not_overwritten_of_handedOut meets)
  | overwritten first =>
    have hFirst := endsAt_of_overwritten meets
    cases b with
    | waiting => exact absurd meets_too hFirst.not_waits
    | handedOut later =>
      rw [hFirst.eq (endsAt_of_handedOut meets_too)] at meets
      exact absurd meets (not_overwritten_of_handedOut meets_too)
    | overwritten later => rw [hFirst.eq (endsAt_of_overwritten meets_too)]

/-- The first event behind a query that ends it decides about its fate. -/
theorem exists_fate (fits : Throughout (Fits first) history)
    (here : history[place]? = some (.recorded bytes t)) : ∃ fate, Meets history place t fate := by
  classical
  have hBytes : t.id.toBytes = bytes := fits place _ here
  subst hBytes
  by_cases ended : ∃ later, place < later ∧ ∃ event, history[later]? = some event ∧ event.Ends t.id
  · rcases Nat.find_spec ended with ⟨behind, event, there, ends⟩
    have hLeast := fun later => @Nat.find_min _ _ ended later
    generalize Nat.find ended = later at behind there hLeast
    have hWaits : Waits (history.take later) place t := by
      refine ⟨?_, ?_⟩
      · rw [List.getElem?_take, if_pos behind]
        exact here
      · intro between after other found ends_too
        rw [List.getElem?_take] at found
        split at found
        next before => exact hLeast between before ⟨after, other, found, ends_too⟩
        next => cases found
    rcases ends with ⟨other, handed, same⟩ | ⟨bytes, other, rfl, same⟩
    · rcases waits_of_handed (fits later event there) handed with ⟨elsewhere, waits⟩
      rw [eq_of_waits waits hWaits same] at handed
      exact ⟨.handedOut later, hWaits, event, there, handed⟩
    · exact ⟨.overwritten later, hWaits, bytes, other, there, same⟩
  · refine ⟨.waiting, here, fun later after event there ends => ended ?_⟩
    exact ⟨later, after, event, there, ends⟩

/-! ## What is taken out -/

theorem get?_eq_some_iff (distinct : (ts.pending.map (·.id)).Nodup) :
    ts.get? id = some t ↔ t.id = id ∧ t ∈ ts.pending := by
  constructor
  · intro found
    exact (mem_of_get? found).symm
  · rintro ⟨rfl, waits⟩
    exact get?_of_mem distinct waits

/-- Without the query under a number, all others are left. -/
theorem mem_erase_iff (distinct : (ts.pending.map (·.id)).Nodup) :
    t ∈ (ts.erase id).pending ↔
      t ∈ ts.pending ∧ ∀ other ∈ (ts.get? id).toList, other.id ≠ t.id := by
  unfold erase
  rw [List.mem_filter, decide_eq_true_iff]
  refine and_congr_right fun waits => ?_
  constructor
  · intro apart other found same
    have hId := ((get?_eq_some_iff distinct).mp (Option.mem_toList.mp found)).1
    exact apart (same.symm.trans hId)
  · rintro apart rfl
    exact apart t (Option.mem_toList.mpr (get?_of_mem distinct waits)) rfl

theorem takeUnder_cases (ts : Transactions) (bytes : Bytes) :
    (∃ id, id.toBytes = bytes ∧ ts.takeUnder bytes = (ts.get? id, ts.erase id)) ∨
      (∀ id : TransactionId, id.toBytes ≠ bytes) ∧ ts.takeUnder bytes = (none, ts) := by
  unfold takeUnder
  cases read : TransactionId.ofBytes? bytes with
  | some id => exact .inl ⟨id, TransactionId.toBytes_of_ofBytes? read, rfl⟩
  | none =>
    refine .inr ⟨?_, rfl⟩
    rintro id rfl
    rw [TransactionId.ofBytes?_toBytes] at read
    cases read

theorem expire_cases (ts : Transactions) (now : Instant) (id : TransactionId)
    (timeout : Duration) :
    (∃ t, ts.get? id = some t ∧ timeout ≤ now - t.issued ∧
        ts.expire now id timeout = (some t, ts.erase id)) ∨
      (∀ t, ts.get? id = some t → ¬ timeout ≤ now - t.issued) ∧
        ts.expire now id timeout = (none, ts) := by
  unfold expire
  cases found : ts.get? id with
  | none =>
    refine .inr ⟨fun t found => ?_, rfl⟩
    cases found
  | some t =>
    by_cases overdue : timeout ≤ now - t.issued
    · exact .inl ⟨t, rfl, overdue, if_pos (decide_eq_true overdue)⟩
    · refine .inr ⟨?_, if_neg fun late => overdue (of_decide_eq_true late)⟩
      rintro other ⟨⟩
      exact overdue

/-- The order is of no account for what is taken out. -/
theorem mem_expired_iff :
    t ∈ (ts.expireAll arrangement now timeout).1 ↔ t ∈ ts.pending ∧ timeout ≤ now - t.issued :=
  (arrangement.perm _).mem_iff.trans <|
    List.mem_filter.trans (and_congr_right fun _ => decide_eq_true_iff)

/-- Without the queries that have waited too long, all others are left. -/
theorem mem_expireAll_iff (distinct : (ts.pending.map (·.id)).Nodup) :
    t ∈ (ts.expireAll arrangement now timeout).2.pending ↔
      t ∈ ts.pending ∧ ∀ other ∈ (ts.expireAll arrangement now timeout).1, other.id ≠ t.id := by
  simp only [mem_expired_iff]
  unfold expireAll isOverdue
  rw [List.mem_filter, Bool.not_eq_true', decide_eq_false_iff_not]
  refine and_congr_right fun waits => ?_
  constructor
  · rintro young other ⟨among, overdue⟩ same
    rw [eq_of_nodup_map distinct among waits same] at overdue
    exact young overdue
  · exact fun apart overdue => apart t ⟨waits, overdue⟩ rfl

/-! ## The queries and their history -/

/-- The queries that wait are those that wait by the history. -/
structure Kept (first : TransactionId) (history : List Event) (ts : Transactions) : Prop where
  fits : Throughout (Fits first) history
  nextId : ts.nextId.number = first.number + UInt16.ofNat (draws history).length
  drawn : ∀ (k : Nat) id, (draws history)[k]? = some id → id.number = first.number + UInt16.ofNat k
  distinct : (ts.pending.map (·.id)).Nodup
  waits : ∀ t, t ∈ ts.pending ↔ ∃ place, Waits history place t

namespace Kept

theorem start (first : TransactionId) : Kept first [] { nextId := first } where
  fits := throughout_nil _
  nextId := (UInt16.add_zero _).symm
  drawn := fun _ _ none_drawn => nomatch none_drawn
  distinct := List.nodup_nil
  waits := fun _ => iff_of_false List.not_mem_nil fun ⟨_, here, _⟩ => nomatch here

/-- An event that draws and records nothing takes out what it ends and leaves the rest. -/
theorem fewer (kept : Kept first history ts) (fits : Fits first history event)
    (undrawn : event.drawn? = none) (unrecorded : event.recorded? = none)
    (counter : next.nextId = ts.nextId) (fewer : next.pending.Sublist ts.pending)
    (waits : ∀ t, t ∈ next.pending ↔ t ∈ ts.pending ∧ ∀ other ∈ event.handed, other.id ≠ t.id) :
    Kept first (history ++ [event]) next := by
  have hDraws : draws (history ++ [event]) = draws history := filterMap_append_of_none undrawn
  refine ⟨kept.fits.append fits, ?_, ?_, kept.distinct.sublist (fewer.map _), ?_⟩
  · rw [hDraws, counter]
    exact kept.nextId
  · rw [hDraws]
    exact kept.drawn
  · intro t
    have hEnds : event.Ends t.id ↔ ∃ other ∈ event.handed, other.id = t.id := by
      refine or_iff_left ?_
      rintro ⟨bytes, other, rfl, -⟩
      cases unrecorded
    rw [waits, kept.waits]
    constructor
    · rintro ⟨⟨place, lasting⟩, apart⟩
      refine ⟨place, waits_append.mpr (.inr ⟨lasting, fun ends => ?_⟩)⟩
      rcases hEnds.mp ends with ⟨other, handed, same⟩
      exact apart other handed same
    · rintro ⟨place, lasting⟩
      rcases waits_append.mp lasting with ⟨-, rfl⟩ | ⟨before, goes_on⟩
      · cases unrecorded
      · exact ⟨⟨place, before⟩, fun other handed same => goes_on (hEnds.mpr ⟨other, handed, same⟩)⟩

/-- An event that takes nothing out either leaves all that waits. -/
theorem same (kept : Kept first history ts) (fits : Fits first history event)
    (undrawn : event.drawn? = none) (unrecorded : event.recorded? = none)
    (nobody : event.handed = []) : Kept first (history ++ [event]) ts := by
  refine kept.fewer fits undrawn unrecorded rfl (.refl _) fun t => ?_
  rw [nobody]
  exact (and_iff_left (List.forall_mem_nil _)).symm

theorem draw (kept : Kept first history ts) :
    Kept first (history ++ [.drawn ts.draw.1]) ts.draw.2 := by
  have hDraws : draws (history ++ [.drawn ts.draw.1]) = draws history ++ [ts.nextId] :=
    List.filterMap_append
  refine ⟨kept.fits.append kept.nextId, ?_, ?_, kept.distinct, ?_⟩
  · rw [hDraws, List.length_append, List.length_singleton, UInt16.ofNat_add, ← UInt16.add_assoc,
      ← kept.nextId]
    rfl
  · intro k id drawn
    rw [hDraws, getElem?_append_singleton] at drawn
    split at drawn
    next last =>
      rw [last, ← Option.some.inj drawn]
      exact kept.nextId
    next => exact kept.drawn k id drawn
  · intro t
    refine (kept.waits t).trans (exists_congr fun place => ?_)
    rw [waits_append]
    constructor
    · intro lasting
      refine .inr ⟨lasting, ?_⟩
      rintro (⟨other, handed, -⟩ | ⟨bytes, other, same, -⟩)
      · cases handed
      · cases same
    · rintro (⟨-, same⟩ | ⟨lasting, -⟩)
      · cases same
      · exact lasting

theorem record (kept : Kept first history ts) (t : Transaction) :
    Kept first (history ++ [.recorded t.id.toBytes t]) (ts.record t) := by
  have hDraws : draws (history ++ [.recorded t.id.toBytes t]) = draws history :=
    filterMap_append_of_none rfl
  refine ⟨kept.fits.append rfl, ?_, ?_, ?_, ?_⟩
  · rw [hDraws]
    exact kept.nextId
  · rw [hDraws]
    exact kept.drawn
  · unfold Transactions.record erase
    rw [List.map_append]
    refine List.nodup_append.mpr ⟨kept.distinct.sublist (List.filter_sublist.map _),
      List.pairwise_singleton _ _, ?_⟩
    rintro id before same single rfl
    rcases List.mem_map.mp before with ⟨other, among, rfl⟩
    exact of_decide_eq_true (List.mem_filter.mp among).2 (List.mem_singleton.mp single)
  · intro other
    have hMember : other ∈ (ts.record t).pending ↔ other = t ∨ other ∈ ts.pending ∧ other.id ≠ t.id := by
      unfold Transactions.record erase
      rw [List.mem_append, List.mem_filter, decide_eq_true_iff, List.mem_singleton, or_comm]
    have hEnds : Event.Ends other.id (.recorded t.id.toBytes t) ↔ other.id = t.id := by
      constructor
      · rintro (⟨_, handed, -⟩ | ⟨bytes, recorded, same, here⟩)
        · cases handed
        · rw [(Event.recorded.inj same).2]
          exact here.symm
      · intro same
        exact .inr ⟨_, t, rfl, same.symm⟩
    rw [hMember, kept.waits]
    constructor
    · rintro (rfl | ⟨⟨place, lasting⟩, apart⟩)
      · exact ⟨history.length, waits_append.mpr (.inl ⟨rfl, rfl⟩)⟩
      · exact ⟨place, waits_append.mpr (.inr ⟨lasting, fun ends => apart (hEnds.mp ends)⟩)⟩
    · rintro ⟨place, lasting⟩
      rcases waits_append.mp lasting with ⟨-, same⟩ | ⟨before, goes_on⟩
      · exact .inl (Event.recorded.inj same).2.symm
      · exact .inr ⟨⟨place, before⟩, fun same => goes_on (hEnds.mpr same)⟩

theorem finds (kept : Kept first history ts) (bytes : Bytes) :
    Finds history bytes (ts.takeUnder bytes).1 := by
  intro t
  rw [← kept.waits]
  rcases takeUnder_cases ts bytes with ⟨id, rfl, taken⟩ | ⟨foreign, taken⟩
  · rw [taken, get?_eq_some_iff kept.distinct]
    refine and_congr_left fun _ => ⟨fun same => ?_, TransactionId.toBytes_inj⟩
    rw [same]
  · rw [taken]
    exact iff_of_false nofun fun found => foreign t.id found.1

/-- An answer takes out the query under its octets, whatever is told of it. -/
theorem takeUnder (kept : Kept first history ts) (bytes : Bytes)
    (fits : Fits first history event) (undrawn : event.drawn? = none)
    (unrecorded : event.recorded? = none)
    (handed : event.handed = (ts.takeUnder bytes).1.toList) :
    Kept first (history ++ [event]) (ts.takeUnder bytes).2 := by
  rcases takeUnder_cases ts bytes with ⟨id, rfl, taken⟩ | ⟨foreign, taken⟩
  · rw [taken] at handed ⊢
    refine kept.fewer fits undrawn unrecorded rfl List.filter_sublist fun t => ?_
    rw [handed]
    exact mem_erase_iff kept.distinct
  · rw [taken] at handed ⊢
    exact kept.same fits undrawn unrecorded handed

theorem expire (kept : Kept first history ts) (now : Instant) (id : TransactionId)
    (timeout : Duration) :
    Kept first (history ++ [.expired id timeout now (ts.expire now id timeout).1])
      (ts.expire now id timeout).2 := by
  have hFits : Fits first history (.expired id timeout now (ts.expire now id timeout).1) := by
    intro t
    rw [← kept.waits]
    rcases expire_cases ts now id timeout with ⟨u, found, overdue, expired⟩ | ⟨young, expired⟩
    · rw [expired]
      constructor
      · rintro ⟨⟩
        exact ⟨(mem_of_get? found).2, (mem_of_get? found).1, overdue⟩
      · rintro ⟨same, waits, -⟩
        exact found.symm.trans ((get?_eq_some_iff kept.distinct).mpr ⟨same, waits⟩)
    · rw [expired]
      refine iff_of_false nofun ?_
      rintro ⟨same, waits, overdue⟩
      exact young t ((get?_eq_some_iff kept.distinct).mpr ⟨same, waits⟩) overdue
  rcases expire_cases ts now id timeout with ⟨u, found, overdue, expired⟩ | ⟨young, expired⟩
  · rw [expired] at hFits ⊢
    refine kept.fewer hFits rfl rfl rfl List.filter_sublist fun t => ?_
    rw [mem_erase_iff kept.distinct, found]
    rfl
  · rw [expired] at hFits ⊢
    exact kept.same hFits rfl rfl rfl

theorem expireAll (kept : Kept first history ts) (arrangement : Arrangement)
    (now : Instant) (timeout : Duration) :
    Kept first (history ++ [.swept timeout now (ts.expireAll arrangement now timeout).1])
      (ts.expireAll arrangement now timeout).2 := by
  refine kept.fewer ⟨?_, ?_⟩ rfl rfl rfl List.filter_sublist fun t =>
    mem_expireAll_iff kept.distinct
  · have hOrder := (arrangement.perm (ts.pending.filter (isOverdue now timeout))).map (·.id)
    exact hOrder.symm.nodup (kept.distinct.sublist (List.filter_sublist.map _))
  · intro t
    rw [← kept.waits]
    exact mem_expired_iff

theorem call (kept : Kept first history ts) (now : Instant) (c : Call) :
    Kept first (history ++ (ts.call now c).1.toList) (ts.call now c).2.2 := by
  cases c with
  | draw => exact kept.draw
  | record bytes t =>
    unfold Transactions.call
    dsimp only
    cases read : TransactionId.ofBytes? bytes with
    | some id =>
      rw [← TransactionId.toBytes_of_ofBytes? read]
      exact kept.record { t with id }
    | none =>
      have hForeign : Fits first history (.ignored bytes) := by
        intro two
        rw [TransactionId.ofBytes?, if_pos two] at read
        cases read
      exact kept.same hForeign rfl rfl rfl
  | resolve bytes => exact kept.takeUnder bytes (kept.finds bytes) rfl rfl rfl
  | classify bytes => exact kept.takeUnder bytes ⟨kept.finds bytes, rfl⟩ rfl rfl rfl
  | expire id timeout => exact kept.expire now id timeout
  | expireAll arrangement timeout => exact kept.expireAll arrangement now timeout
  | advance time =>
    unfold Transactions.call
    rw [Option.toList_none, List.append_nil]
    exact kept

theorem run (first : TransactionId) (now : Instant) (calls : List Call) :
    Kept first (run first now calls).1 (run first now calls).2.2 := by
  have hFrom : ∀ past : List Event × Instant × Transactions, Kept first past.1 past.2.2 →
      Kept first (calls.foldl log past).1 (calls.foldl log past).2.2 := by
    induction calls with
    | nil => exact fun _ kept => kept
    | cons c calls ih => exact fun past kept => ih (log past c) (kept.call past.2.1 c)
  exact hFrom ([], now, { nextId := first }) (start first)

/-- After 65536 numbers they begin anew, and not before. -/
theorem draws_ne {a b : Nat} {x y : TransactionId} (kept : Kept first history ts) (order : a < b)
    (near : b < a + 65536) (one : (draws history)[a]? = some x)
    (another : (draws history)[b]? = some y) : x ≠ y := by
  rintro rfl
  have hSame := (kept.drawn a x one).symm.trans (kept.drawn b x another)
  have hCounts := congrArg UInt16.toNat hSame
  rw [UInt16.toNat_add, UInt16.toNat_add, UInt16.toNat_ofNat', UInt16.toNat_ofNat'] at hCounts
  omega

end Kept

/-- Queries of which each has one fate, and answers that follow from the history. -/
structure Traced (first : TransactionId) (history : List Event) (ts : Transactions) : Prop where
  /-- Each call came to what it had to after those before it. -/
  fits : ∀ place event, history[place]? = some event → Fits first (history.take place) event
  /-- A recorded query waits, or was handed out once, or was overwritten. -/
  fate : ∀ place bytes t, history[place]? = some (.recorded bytes t) →
    ∃! fate, Meets history place t fate
  /-- What was handed out is the one query that was recorded at some place. -/
  source : ∀ later event t, history[later]? = some event → t ∈ event.handed →
    ∃! place, Meets history place t (.handedOut later)
  waits : ∀ t, t ∈ ts.pending ↔ ∃ place, Meets history place t .waiting
  /-- A number comes back no sooner than after 65536 others. -/
  fresh : ∀ (a b : Nat) x y, a < b → b < a + 65536 → (draws history)[a]? = some x →
    (draws history)[b]? = some y → x.toBytes ≠ y.toBytes
  /-- Nor is what was recorded under it overwritten under one of these. -/
  spared : ∀ (a b : Nat) x y, a < b → b < a + 65536 → (draws history)[a]? = some x →
    (draws history)[b]? = some y → ∀ place later t u, history[place]? = some (.recorded x.toBytes t) →
      history[later]? = some (.recorded y.toBytes u) → ¬ Meets history place t (.overwritten later)

/-- Whatever the queries are called for and in whatever order, they can be traced. -/
theorem traced_run (first : TransactionId) (now : Instant) (calls : List Call) :
    Traced first (run first now calls).1 (run first now calls).2.2 := by
  have hKept := Kept.run first now calls
  generalize run first now calls = past at hKept ⊢
  refine ⟨hKept.fits, ?_, ?_, hKept.waits, ?_, ?_⟩
  · intro place bytes t recorded
    rcases exists_fate hKept.fits recorded with ⟨fate, meets⟩
    exact ⟨fate, meets, fun other meets_too => fate_unique meets_too meets⟩
  · intro later event t here handed
    rcases waits_of_handed (hKept.fits later event here) handed with ⟨place, waits⟩
    exact ⟨place, ⟨waits, event, here, handed⟩,
      fun elsewhere meets => place_eq_of_waits meets.1 waits rfl⟩
  · intro a b x y order near one another same
    exact hKept.draws_ne order near one another (TransactionId.toBytes_inj same)
  · rintro a b x y order near one another place later t u recorded recorded_too
      ⟨-, bytes, other, there, same⟩
    have hFirst : t.id.toBytes = x.toBytes := hKept.fits place _ recorded
    have hSecond : u.id.toBytes = y.toBytes := hKept.fits later _ recorded_too
    rw [recorded_too] at there
    rw [← (Event.recorded.inj (Option.some.inj there)).2] at same
    rw [same] at hSecond
    exact hKept.draws_ne order near one another (TransactionId.toBytes_inj (hFirst.symm.trans hSecond))

end Transactions
end Kademlia

import Kademlia.Proofs.Crc32c
import Kademlia.Token

namespace Kademlia

/-!
# How long a token is valid

The secrets of a store change in passing, when the store is called and the present one is ten minutes
old or more.  A token is accepted for ten minutes after it was issued, whatever calls come in between
(`accepted_of_recent`).  It is not always refused after twenty: the call that turns its secret into
the previous one may come just before these are over, and starts the time of the new secret then.
The token stays valid for ten minutes after that call, and is refused from thirty minutes on
(`accepted_iff_of_run`).
-/

namespace Token

theorem ofBytes?_toBytes (token : Token) : ofBytes? token.toBytes = some token := by
  have hBound : token.word.toNat < BigEndian.capacity 4 := token.word.isLt
  rw [ofBytes?, toBytes, if_pos (BigEndian.length_encode ..), BigEndian.decode_encode,
    Nat.mod_eq_of_lt hBound, BitVec.ofNat_toNat, BitVec.setWidth_eq]

/-- The tokens of one host tell the secrets apart. -/
theorem ofSecret_injective (host : Ip) : Function.Injective (ofSecret · host) := by
  intro first second same
  have hChecksum := Crc32c.append_injective host.octets (congrArg word same)
  have hOctets := Crc32c.append_inj 0 (Nat.le_of_eq (BigEndian.length_encode 4 first.toNat))
    (by rw [BigEndian.length_encode, BigEndian.length_encode]) hChecksum
  have hNumber := congrArg BigEndian.decode hOctets
  rw [BigEndian.decode_encode, BigEndian.decode_encode] at hNumber
  have hFirst : first.toNat < BigEndian.capacity 4 := first.isLt
  have hSecond : second.toNat < BigEndian.capacity 4 := second.isLt
  rw [Nat.mod_eq_of_lt hFirst, Nat.mod_eq_of_lt hSecond] at hNumber
  exact BitVec.eq_of_toNat_eq hNumber

end Token

namespace TokenStore

/-- What a store can be called for. -/
inductive Call where
  | checkout (host : Ip)
  | checkin (host : Ip) (octets : Bytes)
deriving DecidableEq

/-- What becomes of a store by a call. -/
def serve (store : TokenStore) (now : Instant) : Call → TokenStore
  | .checkout host => (store.checkout now host).2
  | .checkin host octets => (store.checkin now host octets).2

/-- What becomes of a store by calls one after another, each at its time. -/
def run (store : TokenStore) (calls : List (Instant × Call)) : TokenStore :=
  calls.foldl (fun store call => store.serve call.1 call.2) store

/-- The calls come at times that never go back, between a first and a last one. -/
def InOrder (first : Instant) (calls : List (Instant × Call)) (last : Instant) : Prop :=
  (first :: calls.map (·.1) ++ [last]).Pairwise (· ≤ ·)

/-- No secret was drawn twice so far. -/
def Distinct (store : TokenStore) : Prop :=
  ∀ i < store.secrets.drawn, ∀ j < store.secrets.drawn,
    store.secrets.value i = store.secrets.value j → i = j

/-- When a secret is replaced that is the present one since the given time: at the first of the calls
at which it is old enough. -/
def replaced? (since : Instant) (calls : List Instant) : Option Instant :=
  calls.find? (since + refreshInterval ≤ ·)

variable {store : TokenStore} {now issued : Instant} {host : Ip} {secret : BitVec 32}
  {times : List Instant}

/-! ## The secrets -/

/-- What becomes of the secrets at a call. -/
inductive Refreshed (store : TokenStore) (now : Instant) : TokenStore → Prop
  | kept : now < store.refreshedAt + refreshInterval → Refreshed store now store
  | moved : store.refreshedAt + refreshInterval ≤ now →
    now < store.refreshedAt + 2 * refreshInterval →
    Refreshed store now ⟨store.secrets.next.1, store.current, now, store.secrets.next.2⟩
  | renewed : store.refreshedAt + 2 * refreshInterval ≤ now →
    Refreshed store now ⟨store.secrets.next.2.next.1, store.secrets.next.1, now,
      store.secrets.next.2.next.2⟩

/-- How many whole intervals have gone by since some time. -/
theorem intervals_cases (since now : Nat) {interval : Nat} (positive : 0 < interval) :
    (now - since) / interval = 0 ∧ now < since + interval ∨
      (now - since) / interval = 1 ∧ since + interval ≤ now ∧ now < since + 2 * interval ∨
      1 < (now - since) / interval ∧ since + 2 * interval ≤ now := by
  have hAge := Nat.div_add_mod (now - since) interval
  have hRest := Nat.mod_lt (now - since) positive
  generalize (now - since) % interval = rest at hAge hRest
  generalize (now - since) / interval = intervals at hAge ⊢
  match intervals with
  | 0 => omega
  | 1 => omega
  | more + 2 =>
    have hOld := Nat.mul_le_mul_left interval (Nat.le_add_left 2 more)
    omega

theorem refreshed_refresh (store : TokenStore) (now : Instant) :
    Refreshed store now (store.refresh now) := by
  have hPositive : 0 < refreshInterval := by decide
  rw [refresh]
  rcases intervals_cases store.refreshedAt now hPositive with
    ⟨none, young⟩ | ⟨one, old, young⟩ | ⟨more, old⟩
  · rw [none]
    exact .kept young
  · rw [one]
    exact .moved old young
  · split
    next none =>
      rw [none] at more
      exact absurd more (by decide)
    next one =>
      rw [one] at more
      exact absurd more (by decide)
    next => exact .renewed old

/-- A call has no other effect on a store. -/
theorem serve_eq (store : TokenStore) (now : Instant) (call : Call) :
    store.serve now call = store.refresh now := by
  cases call <;> rfl

theorem run_eq (store : TokenStore) (calls : List (Instant × Call)) :
    store.run calls = (calls.map (·.1)).foldl refresh store := by
  rw [run, List.foldl_map]
  simp only [serve_eq]

/-- The tokens made with a secret are accepted. -/
def Honours (store : TokenStore) (secret : BitVec 32) : Prop :=
  secret = store.current ∨ secret = store.previous

theorem checkin_iff (store : TokenStore) (now : Instant) (host : Ip) (secret : BitVec 32) :
    (store.checkin now host (Token.ofSecret secret host).toBytes).1 = true ↔
      (store.refresh now).Honours secret := by
  have hInjective : ∀ other, Token.ofSecret secret host = Token.ofSecret other host ↔
      secret = other := fun other => (Token.ofSecret_injective host).eq_iff
  unfold checkin Honours
  dsimp only
  rw [Token.ofBytes?_toBytes]
  dsimp only
  rw [decide_eq_true_eq, hInjective, hInjective]

/-! ## Recent tokens -/

/-- A secret that was the present one at the given time was so for less than ten minutes then, or has
become the previous one after it. -/
def Recent (issued : Instant) (secret : BitVec 32) (store : TokenStore) : Prop :=
  secret = store.current ∧ issued < store.refreshedAt + refreshInterval ∨
    secret = store.previous ∧ issued < store.refreshedAt

theorem recent_refresh (store : TokenStore) (issued : Instant) :
    Recent issued (store.refresh issued).current (store.refresh issued) := by
  have hRefreshed := refreshed_refresh store issued
  refine .inl ⟨rfl, ?_⟩
  generalize store.refresh issued = after at hRefreshed ⊢
  cases hRefreshed with
  | kept young => exact young
  | moved => exact Nat.lt_add_of_pos_right (show 0 < refreshInterval by decide)
  | renewed => exact Nat.lt_add_of_pos_right (show 0 < refreshInterval by decide)

theorem Recent.lt (recent : Recent issued secret store) :
    issued < store.refreshedAt + refreshInterval := by
  rcases recent with ⟨-, young⟩ | ⟨-, before⟩
  · exact young
  · exact Nat.lt_add_right _ before

/-- A recent secret is still the present one, or the time of the new one has not run out. -/
theorem Recent.refresh (recent : Recent issued secret store)
    (soon : now ≤ issued + refreshInterval) : Recent issued secret (store.refresh now) := by
  have hRefreshed := refreshed_refresh store now
  generalize store.refresh now = after at hRefreshed ⊢
  rcases recent with ⟨current, young⟩ | ⟨previous, before⟩
  · cases hRefreshed with
    | kept => exact .inl ⟨current, young⟩
    | moved old => exact .inr ⟨current, Nat.lt_of_lt_of_le young old⟩
    | renewed old =>
      unfold Instant at *
      omega
  · have hYoung : now < store.refreshedAt + refreshInterval :=
      Nat.lt_of_le_of_lt soon (Nat.add_lt_add_right before _)
    cases hRefreshed with
    | kept => exact .inr ⟨previous, before⟩
    | moved old => exact absurd old (Nat.not_le_of_lt hYoung)
    | renewed old =>
      unfold Instant at *
      omega

theorem Recent.foldl (recent : Recent issued secret store)
    (soon : ∀ time ∈ times, time ≤ issued + refreshInterval) :
    Recent issued secret (times.foldl TokenStore.refresh store) := by
  induction times generalizing store with
  | nil => exact recent
  | cons time times ih =>
    rcases List.forall_mem_cons.mp soon with ⟨first, rest⟩
    exact ih (recent.refresh first) rest

/-- A token is accepted for ten minutes after it was issued, whatever calls come in between. -/
theorem accepted_of_recent (store : TokenStore) (issued : Instant) (host : Ip)
    (calls : List (Instant × Call)) (now : Instant) (ordered : InOrder issued calls now)
    (recent : now ≤ issued + Duration.minutes 10) :
    let (token, after) := store.checkout issued host
    ((after.run calls).checkin now host token.toBytes).1 = true := by
  have hCalls : ∀ time ∈ calls.map (·.1), time ≤ issued + refreshInterval := by
    intro time member
    have hLast := (List.pairwise_append.mp ordered).2.2 time (List.mem_cons_of_mem _ member) now
      (List.mem_singleton_self now)
    exact Nat.le_trans hLast recent
  have hRun := ((recent_refresh store issued).foldl hCalls).refresh recent
  rw [← run_eq] at hRun
  refine (checkin_iff ..).mpr ?_
  rcases hRun with ⟨current, -⟩ | ⟨previous, -⟩
  · exact .inl current
  · exact .inr previous

/-- Two calls after that of the fifth second, the first of which changes its secret. -/
def passing : List (Instant × Call) :=
  [(600000, .checkin (.v4 1) []), (604000, .checkout (.v4 2))]

theorem accepted_of_passing :
    InOrder 5000 passing 605000 ∧ 605000 ≤ 5000 + Duration.minutes 10 ∧
      let (token, after) := (start 0 (.cycle [1, 2, 3])).checkout 5000 (.v4 0x7f000001)
      ((after.run passing).checkin 605000 (.v4 0x7f000001) token.toBytes).1 = true := by
  have hOrdered : InOrder 5000 passing 605000 := by
    unfold InOrder
    decide
  exact ⟨hOrdered, by decide, accepted_of_recent _ 5000 (.v4 0x7f000001) passing 605000 hOrdered
    (by decide)⟩

/-! ## Old tokens -/

/-- The secret was drawn. -/
def Drawn (store : TokenStore) (secret : BitVec 32) : Prop :=
  ∃ i < store.secrets.drawn, store.secrets.value i = secret

/-- Later stores have drawn more of the same secrets. -/
structure Later (store later : TokenStore) : Prop where
  value : later.secrets.value = store.secrets.value
  drawn : store.secrets.drawn ≤ later.secrets.drawn

theorem later_refresh (store : TokenStore) (now : Instant) : Later store (store.refresh now) := by
  have hRefreshed := refreshed_refresh store now
  generalize store.refresh now = after at hRefreshed ⊢
  cases hRefreshed with
  | kept => exact ⟨rfl, Nat.le_refl _⟩
  | moved => exact ⟨rfl, Nat.le_succ _⟩
  | renewed => exact ⟨rfl, Nat.le_add_right _ 2⟩

theorem Later.drawn_secret {later : TokenStore} (later_than : Later store later)
    (drawn : store.Drawn secret) : later.Drawn secret := by
  rcases drawn with ⟨i, below, rfl⟩
  exact ⟨i, Nat.lt_of_lt_of_le below later_than.drawn, congrFun later_than.value i⟩

theorem Later.distinct {later : TokenStore} (later_than : Later store later)
    (distinct : later.Distinct) : store.Distinct := by
  intro i belowI j belowJ same
  rw [← later_than.value] at same
  exact distinct i (Nat.lt_of_lt_of_le belowI later_than.drawn) j
    (Nat.lt_of_lt_of_le belowJ later_than.drawn) same

theorem distinct_of_foldl (distinct : (times.foldl refresh store).Distinct) : store.Distinct := by
  induction times generalizing store with
  | nil => exact distinct
  | cons time times ih => exact (later_refresh store time).distinct (ih distinct)

/-- What is drawn next was not drawn before. -/
theorem value_ne_of_drawn {later : TokenStore} (later_than : Later store later)
    (distinct : later.Distinct) (drawn : store.Drawn secret) {i : Nat}
    (fresh : store.secrets.drawn ≤ i) (below : i < later.secrets.drawn) :
    secret ≠ store.secrets.value i := by
  rcases drawn with ⟨j, before, rfl⟩
  intro same
  rw [← later_than.value] at same
  have hSame := distinct j (Nat.lt_of_lt_of_le before later_than.drawn) i below same
  omega

/-- A secret that is no longer accepted never is again. -/
theorem not_honours_foldl (distinct : (times.foldl refresh store).Distinct)
    (drawn : store.Drawn secret) (retired : ¬ store.Honours secret) :
    ¬ (times.foldl refresh store).Honours secret := by
  induction times generalizing store with
  | nil => exact retired
  | cons time times ih =>
    have hLater := later_refresh store time
    have hNew := @value_ne_of_drawn store secret _ hLater (distinct_of_foldl distinct) drawn
    have hRefreshed := refreshed_refresh store time
    refine ih distinct (hLater.drawn_secret drawn) ?_
    rcases not_or.mp retired with ⟨notCurrent, -⟩
    generalize store.refresh time = after at hRefreshed hNew ⊢
    cases hRefreshed with
    | kept => exact retired
    | moved =>
      rintro (current | previous)
      · exact hNew (Nat.le_refl _) (Nat.lt_succ_self _) current
      · exact notCurrent previous
    | renewed =>
      rintro (current | previous)
      · exact hNew (Nat.le_succ _) (Nat.lt_succ_self _) current
      · exact hNew (Nat.le_refl _) (Nat.lt_succ_of_lt (Nat.lt_succ_self _)) previous

/-- A secret that is replaced while it is not the present one is not accepted any more. -/
theorem not_honours_refresh (distinct : (store.refresh now).Distinct) (drawn : store.Drawn secret)
    (old : store.refreshedAt + refreshInterval ≤ now)
    (another : secret ≠ store.current ∨ store.refreshedAt + 2 * refreshInterval ≤ now) :
    ¬ (store.refresh now).Honours secret := by
  have hNew := @value_ne_of_drawn store secret _ (later_refresh store now) distinct drawn
  have hRefreshed := refreshed_refresh store now
  generalize store.refresh now = after at hRefreshed hNew ⊢
  cases hRefreshed with
  | kept young => exact absurd old (Nat.not_le_of_lt young)
  | moved _ young =>
    rintro (current | previous)
    · exact hNew (Nat.le_refl _) (Nat.lt_succ_self _) current
    · exact another.elim (fun other => other previous) (Nat.not_le_of_lt young)
  | renewed =>
    rintro (current | previous)
    · exact hNew (Nat.le_succ _) (Nat.lt_succ_self _) current
    · exact hNew (Nat.le_refl _) (Nat.lt_succ_of_lt (Nat.lt_succ_self _)) previous

theorem refresh_of_lt (young : now < store.refreshedAt + refreshInterval) :
    store.refresh now = store := by
  have hRefreshed := refreshed_refresh store now
  generalize store.refresh now = after at hRefreshed ⊢
  cases hRefreshed with
  | kept => rfl
  | moved old => exact absurd old (Nat.not_le_of_lt young)
  | renewed old =>
    unfold Instant at *
    omega

/-- The previous secret is accepted until the present one is replaced. -/
theorem honours_previous_foldl (distinct : (times.foldl refresh store).Distinct)
    (drawn : store.Drawn secret) (previous : secret = store.previous)
    (another : secret ≠ store.current) :
    (times.foldl refresh store).Honours secret ↔
      ∀ time ∈ times, time < store.refreshedAt + refreshInterval := by
  induction times with
  | nil => exact iff_of_true (.inr previous) nofun
  | cons time times ih =>
    rw [List.foldl_cons] at distinct ⊢
    rw [List.forall_mem_cons]
    by_cases young : time < store.refreshedAt + refreshInterval
    · rw [refresh_of_lt young] at distinct ⊢
      rw [ih distinct, and_iff_right young]
    · have hRetired := not_honours_refresh (distinct_of_foldl distinct) drawn
        (Nat.le_of_not_lt young) (.inl another)
      refine iff_of_false ?_ fun all => young all.1
      exact not_honours_foldl distinct ((later_refresh store time).drawn_secret drawn) hRetired

theorem find?_le_cons (bound time : Instant) (times : List Instant) :
    (time :: times).find? (bound ≤ ·) = if bound ≤ time then some time else times.find? (bound ≤ ·) := by
  rw [List.find?_cons]
  by_cases old : bound ≤ time
  · rw [decide_eq_true old, if_pos old]
  · rw [decide_eq_false old, if_neg old]

theorem replaced?_cons (since time : Instant) (times : List Instant) :
    replaced? since (time :: times) =
      if since + refreshInterval ≤ time then some time else replaced? since times :=
  find?_le_cons (since + refreshInterval) time times

/-- The present secret is accepted until it is replaced, and if it was not twice as old by then, for
ten minutes from that time. -/
theorem honours_current_foldl (distinct : (times.foldl refresh store).Distinct)
    (drawn : store.Drawn secret) (current : secret = store.current)
    (last : ∀ time ∈ times, time ≤ now)
    (closing : now ∈ times ∨ now < store.refreshedAt + refreshInterval) :
    (times.foldl refresh store).Honours secret ↔
      ∀ replaced, replaced? store.refreshedAt times = some replaced →
        replaced < store.refreshedAt + 2 * refreshInterval ∧ now < replaced + refreshInterval := by
  induction times with
  | nil => exact iff_of_true (.inl current) nofun
  | cons time times ih =>
    rcases List.forall_mem_cons.mp last with ⟨soon, rest⟩
    rw [replaced?_cons]
    rw [List.foldl_cons] at distinct ⊢
    by_cases young : time < store.refreshedAt + refreshInterval
    · rw [refresh_of_lt young] at distinct ⊢
      rw [if_neg (Nat.not_le_of_lt young)]
      refine ih distinct rest ?_
      rcases closing with here | young
      · rcases List.mem_cons.mp here with rfl | later
        · exact .inr young
        · exact .inl later
      · exact .inr young
    · have hOld := Nat.le_of_not_lt young
      have hLater := later_refresh store time
      have hNew := @value_ne_of_drawn store secret _ hLater (distinct_of_foldl distinct) drawn
      have hDrawn := hLater.drawn_secret drawn
      have hNow : now ∈ time :: times :=
        closing.resolve_right fun soonest => young (Nat.lt_of_le_of_lt soon soonest)
      have hReplaced : ∀ {holds : Instant → Prop},
          (∀ replaced, some time = some replaced → holds replaced) ↔ holds time :=
        ⟨fun all => all time rfl, fun holds _ same => Option.some.inj same ▸ holds⟩
      rw [if_pos hOld, hReplaced]
      by_cases twice : store.refreshedAt + 2 * refreshInterval ≤ time
      · have hRetired := not_honours_refresh (distinct_of_foldl distinct) drawn hOld (.inr twice)
        exact iff_of_false (not_honours_foldl distinct hDrawn hRetired) fun both =>
          Nat.not_lt_of_le twice both.1
      · rw [and_iff_right (Nat.lt_of_not_le twice)]
        have hRefreshed := refreshed_refresh store time
        generalize store.refresh time = after at distinct hRefreshed hNew hDrawn ⊢
        cases hRefreshed with
        | kept early => exact absurd early young
        | moved =>
          rw [honours_previous_foldl distinct hDrawn current
            (hNew (Nat.le_refl _) (Nat.lt_succ_self _))]
          constructor
          · intro all
            rcases List.mem_cons.mp hNow with rfl | later
            · exact Nat.lt_add_of_pos_right (show 0 < refreshInterval by decide)
            · exact all now later
          · exact fun before other member => Nat.lt_of_le_of_lt (rest other member) before
        | renewed old => exact absurd old twice

/-- A secret that was issued thirty minutes ago has been replaced: too late, or ten minutes ago. -/
theorem outlived_of_late {since : Instant} (order : since ≤ issued) (member : now ∈ times)
    (late : issued + Duration.minutes 30 ≤ now) :
    ¬ ∀ replaced, replaced? since times = some replaced →
      replaced < since + Duration.minutes 20 ∧ now < replaced + Duration.minutes 10 := by
  intro all
  cases found : replaced? since times with
  | none =>
    have hNow := List.find?_eq_none.mp found now member
    have hInterval : refreshInterval ≤ Duration.minutes 30 := by decide
    exact hNow (decide_eq_true (Nat.le_trans (Nat.add_le_add order hInterval) late))
  | some replaced =>
    rcases all replaced found with ⟨early, soon⟩
    have hNow := calc
      now < replaced + Duration.minutes 10 := soon
      _ ≤ since + Duration.minutes 20 + Duration.minutes 10 :=
        Nat.add_le_add_right (Nat.le_of_lt early) _
      _ = since + Duration.minutes 30 := Nat.add_assoc ..
      _ ≤ issued + Duration.minutes 30 := Nat.add_le_add_right order _
    exact Nat.not_le_of_lt hNow late

/-! ## Stores of some age -/

/-- The present secret was drawn, and no later than now. -/
structure Settled (now : Instant) (store : TokenStore) : Prop where
  drawn : store.Drawn store.current
  since : store.refreshedAt ≤ now

theorem settled_start (now : Instant) (secrets : Draws (BitVec 32)) :
    Settled now (start now secrets) :=
  ⟨⟨secrets.drawn, Nat.lt_succ_of_lt (Nat.lt_succ_self _), rfl⟩, Nat.le_refl _⟩

theorem Settled.refresh {next : Instant} (settled : Settled now store) (order : now ≤ next) :
    Settled next (store.refresh next) := by
  have hRefreshed := refreshed_refresh store next
  generalize store.refresh next = after at hRefreshed ⊢
  cases hRefreshed with
  | kept => exact ⟨settled.drawn, Nat.le_trans settled.since order⟩
  | moved => exact ⟨⟨store.secrets.drawn, Nat.lt_succ_self _, rfl⟩, Nat.le_refl _⟩
  | renewed => exact ⟨⟨store.secrets.drawn + 1, Nat.lt_succ_self _, rfl⟩, Nat.le_refl _⟩

theorem Settled.foldl (settled : Settled now store) {last : Instant}
    (ordered : (now :: times ++ [last]).Pairwise (· ≤ ·)) :
    Settled last ((times ++ [last]).foldl TokenStore.refresh store) := by
  induction times generalizing now store with
  | nil =>
    exact settled.refresh ((List.pairwise_cons.mp ordered).1 last List.mem_cons_self)
  | cons time times ih =>
    rcases List.pairwise_cons.mp ordered with ⟨before, later⟩
    exact ih (settled.refresh (before time List.mem_cons_self)) later

/-- A token is accepted as long as its secret has not been replaced, and for ten minutes after that if
it was replaced before it was twenty minutes old.  When that is depends on the calls that come in, but
thirty minutes after it was issued the token is refused. -/
theorem accepted_iff_of_run (secrets : Draws (BitVec 32)) (opened : Instant)
    (before : List (Instant × Call)) (issued : Instant) (host : Ip)
    (after : List (Instant × Call)) (now : Instant)
    (ordered : InOrder opened (before ++ (issued, .checkout host) :: after) now) :
    let issue := ((start opened secrets).run before).checkout issued host
    let redeem := (issue.2.run after).checkin now host issue.1.toBytes
    redeem.2.Distinct →
      issue.2.refreshedAt ≤ issued ∧ issued < issue.2.refreshedAt + Duration.minutes 10 ∧
      (redeem.1 = true ↔
        ∀ replaced, replaced? issue.2.refreshedAt (after.map (·.1) ++ [now]) = some replaced →
          replaced < issue.2.refreshedAt + Duration.minutes 20 ∧
            now < replaced + Duration.minutes 10) ∧
      (issued + Duration.minutes 30 ≤ now → redeem.1 = false) := by
  intro issue redeem distinct
  have hTimes : (opened :: before.map (·.1) ++ [issued] ++ (after.map (·.1) ++ [now])).Pairwise
      (· ≤ ·) := by
    rw [InOrder, List.map_append, List.map_cons] at ordered
    simpa using ordered
  rcases List.pairwise_append.mp hTimes with ⟨hBefore, hAfter, -⟩
  have hLast : ∀ time ∈ after.map (·.1) ++ [now], time ≤ now := by
    intro time member
    rcases List.mem_append.mp member with earlier | here
    · exact (List.pairwise_append.mp hAfter).2.2 time earlier now (List.mem_singleton_self now)
    · exact Nat.le_of_eq (List.mem_singleton.mp here)
  have hSettled : Settled issued issue.2 := by
    have hBefore := (settled_start opened secrets).foldl hBefore
    rw [List.foldl_append, ← run_eq] at hBefore
    exact hBefore
  have hYoung : issued < issue.2.refreshedAt + refreshInterval :=
    (recent_refresh ((start opened secrets).run before) issued).lt
  have hRedeemed : redeem.2 = (after.map (·.1) ++ [now]).foldl TokenStore.refresh issue.2 := by
    rw [List.foldl_append, ← run_eq]
    rfl
  have hAccepted : redeem.1 = true ↔ redeem.2.Honours issue.2.current := checkin_iff ..
  have hMember : now ∈ after.map (·.1) ++ [now] :=
    List.mem_append_right _ (List.mem_singleton_self now)
  rw [hRedeemed] at distinct hAccepted
  rw [honours_current_foldl distinct hSettled.drawn rfl hLast (.inl hMember)] at hAccepted
  refine ⟨hSettled.since, hYoung, hAccepted, fun late => ?_⟩
  apply Bool.eq_false_iff.mpr
  rw [Ne, hAccepted]
  exact outlived_of_late hSettled.since hMember late

/-- A call that changes the secrets ten seconds before they would both be too old. -/
def belated : List (Instant × Call) :=
  [(1790000, .checkout (.v4 2))]

theorem accepted_iff_of_belated :
    InOrder 0 ([(600000, .checkin (.v4 1) [])] ++ (700000, .checkout (.v4 0x7f000001)) :: belated)
        2389999 ∧
      let issue := ((start 0 (.cycle [1, 2, 3, 4])).run [(600000, .checkin (.v4 1) [])]).checkout
        700000 (.v4 0x7f000001)
      let redeem := (issue.2.run belated).checkin 2389999 (.v4 0x7f000001) issue.1.toBytes
      redeem.2.Distinct ∧
        issue.2.refreshedAt ≤ 700000 ∧ 700000 < issue.2.refreshedAt + Duration.minutes 10 ∧
        (redeem.1 = true ↔
          ∀ replaced, replaced? issue.2.refreshedAt (belated.map (·.1) ++ [2389999]) =
              some replaced →
            replaced < issue.2.refreshedAt + Duration.minutes 20 ∧
              2389999 < replaced + Duration.minutes 10) ∧
        (700000 + Duration.minutes 30 ≤ 2389999 → redeem.1 = false) := by
  have hOrdered : InOrder 0
      ([(600000, .checkin (.v4 1) [])] ++ (700000, .checkout (.v4 0x7f000001)) :: belated)
      2389999 := by
    unfold InOrder
    decide
  refine ⟨hOrdered, ?_⟩
  intro issue redeem
  have hDistinct : redeem.2.Distinct := by
    unfold Distinct
    decide +kernel
  exact ⟨hDistinct, accepted_iff_of_run (.cycle [1, 2, 3, 4]) 0 _ 700000
    (.v4 0x7f000001) belated 2389999 hOrdered hDistinct⟩

theorem accepted_after_twenty_minutes :
    let issue := (start 0 (.cycle [1, 2, 3])).checkout 0 (.v4 0x7f000001)
    let calls := [(1199000, Call.checkout (.v4 0x7f000001))]
    let redeem := (issue.2.run calls).checkin (Duration.minutes 20) (.v4 0x7f000001)
      issue.1.toBytes
    InOrder 0 ((0, .checkout (.v4 0x7f000001)) :: calls) (Duration.minutes 20) ∧
      redeem.2.Distinct ∧ redeem.1 = true := by
  unfold InOrder Distinct
  decide +kernel

end TokenStore
end Kademlia

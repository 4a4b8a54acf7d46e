import SkipCell.Cache.Pool
import SkipCell.Foundation.ResourceOrder
import SkipCell.Foundation.Transition

/-! # Batches of pages

`reserve_many` reserves the pages of a batch in increasing order under one lock,
which it releases only while it waits for a page that is in flight; the loads of
the batch that it already has stay unpublished during that time. Each client
publishes its loads before it asks for the next batch.
-/

namespace SkipCell.Cache

open Foundation

/-- The source tests that the batch is sorted and that no neighbours are equal. -/
def strictlyIncreasing : List PageId → Bool
  | first :: second :: pageIds => decide (first < second) && strictlyIncreasing (second :: pageIds)
  | _ => true

/-- Where `reserve_many` gives up the lock: at its end, at a page in flight or by an
exception. It has the reservations of the pages before. -/
inductive BatchProgress
  | finished (reservations : List Reservation)
  | waiting (pageId : PageId) (remaining : List PageId) (reservations : List Reservation)
  | failed (reservations : List Reservation)

namespace Pool

/-- The loop of `reserve_many`. A caller that waited for the first page comes back
with `coalesced` set. -/
def reserveFrom (access : Access) :
    List PageId → Bool → Pool → List Reservation → Pool × BatchProgress
  | [], _, pool, reservations => (pool, .finished reservations)
  | pageId :: remaining, coalesced, pool, reservations =>
    match pool.reserveLocked pageId access true coalesced with
    | (pool, .error _) => (pool, .failed reservations)
    | (pool, .ok .waiting) => (pool, .waiting pageId remaining reservations)
    | (pool, .ok (.finished reservation)) =>
      reserveFrom access remaining false pool (reservations ++ [reservation])

/-- The loop of `publish_many`, which stops at the first exception. -/
def publishMany (pool : Pool) (success : Bool) : List Reservation → Call Unit
  | [] => (pool, .ok ())
  | reservation :: reservations =>
    match pool.publish reservation success with
    | (pool, .error error) => (pool, .error error)
    | (pool, .ok ()) => publishMany pool success reservations

end Pool

/-- A call of `reserve_many` that waits for a page. -/
structure Sleeper where
  pageId : PageId
  remaining : List PageId
  access : Access
  reservations : List Reservation

/-- What a client holds. `lost` are the reservations of a batch that ended with an
exception: the client cannot publish them any more. -/
structure Client where
  asleep : Option Sleeper := none
  loads : List Reservation := []
  pins : List Reservation := []
  lost : List Reservation := []

def isLoad (reservation : Reservation) : Bool := reservation.state = .load

namespace Client

/-- The reservations that the client has and did not publish or release. -/
def held (client : Client) : List Reservation :=
  client.loads ++ client.lost ++ (client.asleep.map Sleeper.reservations).getD []

/-- The client is loading the page: it has a load of it that is not published. -/
def IsLoading (client : Client) (pageId : PageId) : Prop :=
  ∃ reservation ∈ client.held, isLoad reservation = true ∧ reservation.pageId = pageId

def waitsFor (client : Client) : Option PageId := client.asleep.map Sleeper.pageId

/-- The client after `reserve_many` has given up the lock. -/
def settle (client : Client) (access : Access) : BatchProgress → Client
  | .finished reservations =>
    { client with
      asleep := none
      loads := client.loads ++ reservations.filter isLoad
      pins := client.pins ++ reservations.filter fun reservation => reservation.state = .hit }
  | .waiting pageId remaining reservations =>
    { client with asleep := some ⟨pageId, remaining, access, reservations⟩ }
  | .failed reservations => { client with asleep := none, lost := client.lost ++ reservations }

end Client

/-- One pool and its clients. -/
structure Batches (ClientId : Type) where
  pool : Pool
  clients : ClientId → Client

inductive BatchAction (ClientId : Type)
  | reserveMany (clientId : ClientId) (pageIds : List PageId) (access : Access)
  | resume (clientId : ClientId)
  | publishMany (clientId : ClientId) (reservations : List Reservation) (success : Bool)
  | tryReserveHit (clientId : ClientId) (pageId : PageId) (access : Access)
  | release (clientId : ClientId) (reservation : Reservation)
  | clear

namespace Batches

variable {ClientId : Type} [DecidableEq ClientId]

def init (capacityPages : Nat) (chunkType : ChunkType) : Batches ClientId :=
  ⟨Pool.init capacityPages chunkType, fun _ => {}⟩

def update (system : Batches ClientId) (pool : Pool) (clientId : ClientId) (client : Client) :
    Batches ClientId :=
  ⟨pool, Function.update system.clients clientId client⟩

def perform (system : Batches ClientId) : BatchAction ClientId → Batches ClientId
  | .reserveMany clientId pageIds access =>
    if strictlyIncreasing pageIds then
      let (pool, progress) := Pool.reserveFrom access pageIds false system.pool []
      system.update pool clientId ((system.clients clientId).settle access progress)
    else system
  | .resume clientId =>
    match (system.clients clientId).asleep with
    | none => system
    | some sleeper =>
      let (pool, progress) := Pool.reserveFrom sleeper.access
        (sleeper.pageId :: sleeper.remaining) true system.pool sleeper.reservations
      system.update pool clientId ((system.clients clientId).settle sleeper.access progress)
  | .publishMany clientId reservations success =>
    match system.pool.publishMany success reservations with
    | (pool, .ok ()) =>
      let client := system.clients clientId
      system.update pool clientId
        { client with
          loads := client.loads.diff reservations
          pins := if success then client.pins ++ reservations else client.pins }
    | (pool, .error _) => { system with pool := pool }
  | .tryReserveHit clientId pageId access =>
    match system.pool.tryReserveHit pageId access with
    | (pool, .ok reservation) =>
      let client := system.clients clientId
      system.update pool clientId
        { client with
          pins := if reservation.state = .hit then client.pins ++ [reservation]
            else client.pins }
    | (pool, .error _) => { system with pool := pool }
  | .release clientId reservation =>
    let client := system.clients clientId
    system.update (system.pool.release reservation).1 clientId
      { client with pins := client.pins.erase reservation }
  | .clear => { system with pool := system.pool.clear.1 }

/-- When a client may do something. A client that sleeps does nothing else, and one
that has loads does not ask for a batch. -/
def Permitted (system : Batches ClientId) : BatchAction ClientId → Prop
  | .reserveMany clientId _ _ =>
    (system.clients clientId).asleep = none ∧ (system.clients clientId).loads = [] ∧
      (system.clients clientId).lost.filter isLoad = []
  | .resume clientId =>
    ∃ sleeper, (system.clients clientId).asleep = some sleeper ∧
      sleeper.pageId ∉ system.pool.loading
  | .publishMany clientId reservations _ =>
    (system.clients clientId).asleep = none ∧
      reservations.Subperm (system.clients clientId).loads
  | .tryReserveHit clientId _ _ => (system.clients clientId).asleep = none
  | .release clientId reservation =>
    (system.clients clientId).asleep = none ∧ reservation ∈ (system.clients clientId).pins
  | .clear => True

instance (system : Batches ClientId) : (action : BatchAction ClientId) →
    Decidable (system.Permitted action)
  | .reserveMany _ _ _ => inferInstanceAs (Decidable (_ ∧ _ ∧ _))
  | .resume clientId =>
    match hasleep : (system.clients clientId).asleep with
    | none => .isFalse fun ⟨_, hsome, _⟩ => nomatch hasleep.symm.trans hsome
    | some sleeper =>
      decidable_of_iff (sleeper.pageId ∉ system.pool.loading)
        ⟨fun hnot => ⟨sleeper, hasleep, hnot⟩, fun ⟨_, hsome, hnot⟩ =>
          Option.some.inj (hsome.symm.trans hasleep) ▸ hnot⟩
  | .publishMany _ _ _ => inferInstanceAs (Decidable (_ ∧ _))
  | .tryReserveHit _ _ _ => inferInstanceAs (Decidable (_ = _))
  | .release _ _ => inferInstanceAs (Decidable (_ ∧ _))
  | .clear => inferInstanceAs (Decidable True)

/-- The pool under clients that reserve batches, over every interleaving. -/
def transition (capacityPages : Nat) (chunkType : ChunkType) :
    Transition (Batches ClientId) (BatchAction ClientId) :=
  .guarded (· = init capacityPages chunkType) Permitted perform

/-- The client waits for a page that the other one is loading. -/
def WaitsFor (system : Batches ClientId) : ClientId → ClientId → Prop :=
  Foundation.WaitsFor (fun clientId => (system.clients clientId).waitsFor)
    fun clientId => (system.clients clientId).IsLoading

end Batches

theorem pairwise_of_strictlyIncreasing {pageIds : List PageId}
    (hincreasing : strictlyIncreasing pageIds = true) : pageIds.Pairwise (· < ·) := by
  induction pageIds with
  | nil => exact .nil
  | cons first pageIds ih =>
    cases pageIds with
    | nil => exact List.pairwise_singleton _ _
    | cons second pageIds =>
      simp only [strictlyIncreasing, Bool.and_eq_true, decide_eq_true_eq] at hincreasing
      have hrest := ih hincreasing.2
      refine List.pairwise_cons.mpr ⟨fun pageId hpageId => ?_, hrest⟩
      rcases List.mem_cons.mp hpageId with rfl | hlater
      · exact hincreasing.1
      · exact hincreasing.1.trans (List.rel_of_pairwise_cons hrest hlater)

namespace Pool

/-- Whatever a call returns is a reservation of this page for this access. -/
def Answers (pageId : PageId) (access : Access) (call : Call Reservation) : Prop :=
  ∀ reservation, call.2 = .ok reservation →
    reservation.pageId = pageId ∧ reservation.access = access

theorem answers_ok (pool : Pool) (reservation : Reservation) :
    Answers reservation.pageId reservation.access (pool, .ok reservation) :=
  fun _ hsame => (Except.ok.inj hsame) ▸ ⟨rfl, rfl⟩

variable (pool : Pool) (pageId : PageId) (access : Access) (coalesced : Bool)

theorem hitResident_answers (entry : ResidentEntry) :
    Answers pageId access (pool.hitResident pageId entry access coalesced) := by
  unfold hitResident
  dsimp only
  split
  · split
    · split
      · nofun
      · exact answers_ok _ _
    · exact answers_ok _ _
  · exact answers_ok _ _

theorem reserveMiss_answers : Answers pageId access (pool.reserveMiss pageId access coalesced) := by
  unfold reserveMiss
  extract_lets counted
  split
  · exact answers_ok _ (.bypass pageId access coalesced)
  · split
    · nofun
    · exact answers_ok _ (.bypass pageId access coalesced)
    · unfold beginLoad
      split
      · nofun
      · exact answers_ok _ _

theorem answers_of_reserveLocked {pool next : Pool} {pageId : PageId} {access : Access}
    {waitForInflight coalesced : Bool} {reservation : Reservation}
    (hcall : pool.reserveLocked pageId access waitForInflight coalesced =
      (next, .ok (.finished reservation))) :
    reservation.pageId = pageId ∧ reservation.access = access := by
  unfold reserveLocked at hcall
  split at hcall
  next entry _ =>
    have hanswers := hitResident_answers pool pageId access coalesced entry
    split at hcall
    next => cases hcall
    next found hfound =>
      obtain ⟨-, hfinished⟩ := Prod.mk.inj hcall
      obtain rfl := Progress.finished.inj (Except.ok.inj hfinished)
      exact hanswers _ (congrArg Prod.snd hfound)
  next =>
    split at hcall
    · cases waitForInflight with
      | true => cases hcall
      | false =>
        obtain ⟨-, hfinished⟩ := Prod.mk.inj hcall
        exact (Progress.finished.inj (Except.ok.inj hfinished)) ▸ ⟨rfl, rfl⟩
    · have hanswers := reserveMiss_answers pool pageId access coalesced
      split at hcall
      next => cases hcall
      next found hfound =>
        obtain ⟨-, hfinished⟩ := Prod.mk.inj hcall
        obtain rfl := Progress.finished.inj (Except.ok.inj hfinished)
        exact hanswers _ (congrArg Prod.snd hfound)

theorem reserveFrom_waiting {access : Access} {pageIds remaining : List PageId} {coalesced : Bool}
    {pool next : Pool} {pageId : PageId} {reserved reservations : List Reservation}
    (hcall : reserveFrom access pageIds coalesced pool reserved =
      (next, .waiting pageId remaining reservations))
    (hincreasing : pageIds.Pairwise (· < ·))
    (hbelow : ∀ reservation ∈ reserved, ∀ other ∈ pageIds, reservation.pageId < other) :
    (∀ reservation ∈ reservations, reservation.pageId < pageId) ∧
      (pageId :: remaining).Pairwise (· < ·) := by
  induction pageIds generalizing coalesced pool reserved with
  | nil => cases hcall
  | cons first pageIds ih =>
    rw [reserveFrom] at hcall
    split at hcall
    next => cases hcall
    next =>
      obtain ⟨-, hwaiting⟩ := Prod.mk.inj hcall
      obtain ⟨rfl, rfl, rfl⟩ := BatchProgress.waiting.inj hwaiting
      exact ⟨fun reservation hreservation => hbelow reservation hreservation _ List.mem_cons_self,
        hincreasing⟩
    next middle reservation hfinished =>
      have hpageId := (answers_of_reserveLocked hfinished).1
      apply ih hcall hincreasing.of_cons
      intro earlier hearlier other hother
      rcases List.mem_append.mp hearlier with hbefore | hlast
      · exact hbelow earlier hbefore other (List.mem_cons_of_mem _ hother)
      · obtain rfl := List.mem_singleton.mp hlast
        rw [hpageId]
        exact List.rel_of_pairwise_cons hincreasing hother

end Pool

/-- A client that sleeps holds loads of its batch only, of pages below the one that it
waits for. -/
structure Client.Ordered (client : Client) : Prop where
  loads : ∀ sleeper, client.asleep = some sleeper → client.loads = []
  lost : ∀ sleeper, client.asleep = some sleeper → client.lost.filter isLoad = []
  below : ∀ sleeper, client.asleep = some sleeper →
    ∀ reservation ∈ sleeper.reservations, reservation.pageId < sleeper.pageId
  increasing : ∀ sleeper, client.asleep = some sleeper →
    (sleeper.pageId :: sleeper.remaining).Pairwise (· < ·)

namespace Client

variable {client : Client}

theorem Ordered.awake (hawake : client.asleep = none) : client.Ordered := by
  constructor <;>
  · intro sleeper hasleep
    rw [hawake] at hasleep
    cases hasleep

theorem Ordered.lt (hordered : client.Ordered) {wanted held : PageId}
    (hwanted : client.waitsFor = some wanted) (hheld : client.IsLoading held) : held < wanted := by
  obtain ⟨sleeper, hasleep, rfl⟩ := Option.map_eq_some_iff.mp hwanted
  obtain ⟨reservation, hreservation, hload, rfl⟩ := hheld
  rw [Client.held, hordered.loads sleeper hasleep, hasleep, List.nil_append] at hreservation
  rcases List.mem_append.mp hreservation with hlost | hbatch
  · have hnone := hordered.lost sleeper hasleep
    exact absurd (List.mem_filter.mpr ⟨hlost, hload⟩) (hnone ▸ List.not_mem_nil)
  · exact hordered.below sleeper hasleep reservation hbatch

theorem Ordered.settle {access : Access} {pageIds : List PageId} {coalesced : Bool}
    {pool : Pool} {reserved : List Reservation} (hloads : client.loads = [])
    (hlost : client.lost.filter isLoad = []) (hincreasing : pageIds.Pairwise (· < ·))
    (hbelow : ∀ reservation ∈ reserved, ∀ other ∈ pageIds, reservation.pageId < other) :
    (client.settle access (Pool.reserveFrom access pageIds coalesced pool reserved).2).Ordered := by
  cases hcall : (Pool.reserveFrom access pageIds coalesced pool reserved).2 with
  | finished reservations => exact .awake rfl
  | failed reservations => exact .awake rfl
  | waiting pageId remaining reservations =>
    obtain ⟨hreserved, hrest⟩ :=
      Pool.reserveFrom_waiting (Prod.ext rfl hcall) hincreasing hbelow
    refine ⟨fun _ _ => hloads, fun _ _ => hlost, ?_, ?_⟩
    · intro sleeper hasleep
      obtain rfl := Option.some.inj hasleep
      exact hreserved
    · intro sleeper hasleep
      obtain rfl := Option.some.inj hasleep
      exact hrest

end Client

namespace Batches

variable {ClientId : Type} [DecidableEq ClientId] {system : Batches ClientId}

def Ordered (system : Batches ClientId) : Prop := ∀ clientId, (system.clients clientId).Ordered

theorem Ordered.update (hordered : system.Ordered) (pool : Pool) (clientId : ClientId)
    {client : Client} (hclient : client.Ordered) :
    (system.update pool clientId client).Ordered := by
  intro other
  change (Function.update system.clients clientId client other).Ordered
  by_cases hsame : other = clientId
  · subst hsame
    rwa [Function.update_self]
  · rw [Function.update_of_ne hsame]
    exact hordered other

theorem Ordered.perform (hordered : system.Ordered) {action : BatchAction ClientId}
    (hpermitted : system.Permitted action) : (system.perform action).Ordered := by
  cases action with
  | reserveMany clientId pageIds access =>
    obtain ⟨-, hloads, hlost⟩ := hpermitted
    simp only [Batches.perform]
    split
    next hincreasing =>
      exact hordered.update _ clientId (.settle hloads hlost
        (pairwise_of_strictlyIncreasing hincreasing) fun _ hnone => absurd hnone List.not_mem_nil)
    next => exact hordered
  | resume clientId =>
    obtain ⟨sleeper, hasleep, -⟩ := hpermitted
    have hclient := hordered clientId
    have hincreasing := hclient.increasing sleeper hasleep
    simp only [Batches.perform, hasleep]
    apply hordered.update
    apply Client.Ordered.settle (hclient.loads sleeper hasleep) (hclient.lost sleeper hasleep)
      hincreasing
    intro reservation hreservation other hother
    have hfirst := hclient.below sleeper hasleep reservation hreservation
    rcases List.mem_cons.mp hother with rfl | hlater
    · exact hfirst
    · exact hfirst.trans (List.rel_of_pairwise_cons hincreasing hlater)
  | publishMany clientId reservations success =>
    simp only [Batches.perform]
    split
    · exact hordered.update _ clientId (.awake hpermitted.1)
    · exact hordered
  | tryReserveHit clientId pageId access =>
    simp only [Batches.perform]
    split
    · exact hordered.update _ clientId (.awake hpermitted)
    · exact hordered
  | release clientId reservation => exact hordered.update _ clientId (.awake hpermitted.1)
  | clear => exact hordered

theorem ordered_of_reachable {capacityPages : Nat} {chunkType : ChunkType}
    (hreach : (transition capacityPages chunkType).Reachable system) : system.Ordered := by
  apply hreach.invariant
  · rintro state rfl
    exact fun clientId => .awake rfl
  · rintro state action next hstate ⟨hpermitted, rfl⟩
    exact hstate.perform hpermitted

/-- Whatever the clients do, they never wait for one another in a circle. -/
theorem no_cyclic_wait {capacityPages : Nat} {chunkType : ChunkType}
    (hreach : (transition capacityPages chunkType).Reachable system) (clientId : ClientId) :
    ¬ Relation.TransGen system.WaitsFor clientId clientId := by
  have hordered := ordered_of_reachable hreach
  exact Foundation.WaitsFor.acyclic (fun other wanted held => (hordered other).lt) clientId

/-- One client is loading two pages, and the other one waits for the second. -/
def oneWaits : List (BatchAction Bool) :=
  [.reserveMany true [0, 1] .demand, .reserveMany false [1, 2] .demand]

theorem no_cyclic_wait_oneWaits :
    ¬ Relation.TransGen
      (oneWaits.foldl perform (init 3 .chunk4kb)).WaitsFor false false :=
  no_cyclic_wait (Transition.reachable_of_permitted rfl (by decide)) false

end Batches

end SkipCell.Cache

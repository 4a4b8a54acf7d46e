import SkipCell.Foundation.BitSet
import SkipCell.Sidecar.Index

/-! # Visited nodes

A query marks the nodes that it has visited in a hash set or in dense bits. The bits and the
ids that are set in them stay with the thread: the next query, maybe on an index of another
size, clears them first.
-/

namespace SkipCell.Search

open Foundation Sidecar

/-- What a query asks of its visited nodes. -/
inductive VisitedCall
  | insert (node : UInt32)
  | contains (node : UInt32)

def VisitedCall.node : VisitedCall → UInt32
  | .insert node => node
  | .contains node => node

/-- The calls of a query on an index with so many points. -/
structure VisitedQuery where
  numPoints : Nat
  calls : List VisitedCall
  bounded : ∀ call ∈ calls, call.node.toNat < numPoints

def answerHash (visited : Finset UInt32) : VisitedCall → Bool × Finset UInt32
  | .insert node => (decide (node ∉ visited), insert node visited)
  | .contains node => (decide (node ∈ visited), visited)

def answersHash : List VisitedCall → Finset UInt32 → List Bool
  | [], _ => []
  | call :: calls, visited =>
    (answerHash visited call).1 :: answersHash calls (answerHash visited call).2

/-- `dense_visited_bits` and `dense_visited_ids`. -/
structure DenseVisited where
  denseVisitedBits : List (BitVec 64) := []
  denseVisitedIds : List UInt32 := []

namespace DenseVisited

/-- The words are read and written unchecked. -/
def checkWord (bits : List (BitVec 64)) (node : UInt32) : Except Error Unit :=
  reject (bits.length ≤ node.toNat / 64) .outOfBounds

/-- What the start of a query does to what the last one left. -/
def start (numPoints : Nat) (dense : DenseVisited) : Except Error DenseVisited := do
  let bits ← scan (fun _ node bits => do
      checkWord bits node
      .ok (BitSet.erase bits node.toNat)) 0 dense.denseVisitedIds dense.denseVisitedBits
  .ok { denseVisitedBits := BitSet.resize bits ((numPoints + 63) / 64) }

def answer (dense : DenseVisited) : VisitedCall → Except Error (Bool × DenseVisited)
  | .insert node => do
    checkWord dense.denseVisitedBits node
    .ok (if BitSet.contains dense.denseVisitedBits node.toNat then (false, dense)
      else (true,
        { denseVisitedBits := BitSet.insert dense.denseVisitedBits node.toNat
          denseVisitedIds := dense.denseVisitedIds ++ [node] }))
  | .contains node => do
    checkWord dense.denseVisitedBits node
    .ok (BitSet.contains dense.denseVisitedBits node.toNat, dense)

def answers : List VisitedCall → DenseVisited → Except Error (List Bool × DenseVisited)
  | [], dense => .ok ([], dense)
  | call :: calls, dense => do
    let (first, dense) ← dense.answer call
    let (rest, dense) ← answers calls dense
    .ok (first :: rest, dense)

/-- The answers of all queries of a thread. -/
def run : List VisitedQuery → DenseVisited → Except Error (List (List Bool))
  | [], _ => .ok []
  | query :: queries, dense => do
    let dense ← dense.start query.numPoints
    let (first, dense) ← dense.answers query.calls
    let rest ← run queries dense
    .ok (first :: rest)

variable {dense : DenseVisited} {numPoints : Nat} {visited : Finset UInt32}

/-- Every bit that is set has its id among those that the next query clears. -/
structure Logged (dense : DenseVisited) : Prop where
  words : ∀ node ∈ dense.denseVisitedIds, node.toNat / 64 < dense.denseVisitedBits.length
  logged : ∀ number, BitSet.contains dense.denseVisitedBits number = true →
    ∃ node ∈ dense.denseVisitedIds, node.toNat = number

/-- The bits are those of the visited nodes. -/
structure Holds (dense : DenseVisited) (numPoints : Nat) (visited : Finset UInt32) : Prop where
  length : dense.denseVisitedBits.length = (numPoints + 63) / 64
  contains : ∀ node : UInt32,
    BitSet.contains dense.denseVisitedBits node.toNat = decide (node ∈ visited)
  logged : dense.Logged

theorem checkWord_eq {bits : List (BitVec 64)} {node : UInt32}
    (hword : node.toNat / 64 < bits.length) : checkWord bits node = .ok () :=
  reject_ok.mpr (Nat.not_le.mpr hword)

theorem start_holds (hlogged : dense.Logged) (numPoints : Nat) :
    ∃ next, dense.start numPoints = .ok next ∧ next.Holds numPoints ∅ := by
  have hcleared : ∃ bits, scan (fun _ node bits => do
        checkWord bits node
        .ok (BitSet.erase bits node.toNat)) 0 dense.denseVisitedIds dense.denseVisitedBits =
          .ok bits ∧ bits.length = dense.denseVisitedBits.length ∧
      ∀ number, BitSet.contains bits number = true →
        BitSet.contains dense.denseVisitedBits number = true ∧
          ∀ node ∈ dense.denseVisitedIds.take (0 + dense.denseVisitedIds.length),
            node.toNat ≠ number := by
    refine scan_total
      (motive := fun position (bits : List (BitVec 64)) =>
        bits.length = dense.denseVisitedBits.length ∧
          ∀ number, BitSet.contains bits number = true →
            BitSet.contains dense.denseVisitedBits number = true ∧
              ∀ node ∈ dense.denseVisitedIds.take position, node.toNat ≠ number)
      ⟨rfl, fun number hset => ⟨hset, nofun⟩⟩ ?_
    rintro index node bits hnode ⟨hlength, hcontains⟩
    rw [Nat.zero_add] at hcontains ⊢
    have hword := hlogged.words node (List.mem_of_getElem? hnode)
    rw [← hlength] at hword
    refine ⟨BitSet.erase bits node.toNat, ?_, ?_, fun number hset => ?_⟩
    · rw [checkWord_eq hword]
      rfl
    · rw [BitSet.length_erase, hlength]
    · rw [BitSet.contains_erase, Bool.and_eq_true, decide_eq_true_eq] at hset
      obtain ⟨hbefore, hothers⟩ := hcontains number hset.2
      refine ⟨hbefore, fun other hother => ?_⟩
      rw [List.take_add_one, hnode] at hother
      rcases List.mem_append.mp hother with hother | hlast
      · exact hothers other hother
      · rw [List.mem_singleton.mp hlast]
        exact hset.1
  obtain ⟨bits, hscan, hlength, hcontains⟩ := hcleared
  have hclear : ∀ number, BitSet.contains bits number = false := by
    intro number
    rw [← Bool.not_eq_true]
    intro hset
    obtain ⟨hbefore, hothers⟩ := hcontains number hset
    rw [Nat.zero_add, List.take_length] at hothers
    obtain ⟨node, hnode, hsame⟩ := hlogged.logged number hbefore
    exact hothers node hnode hsame
  refine ⟨_, bind_ok.mpr ⟨bits, hscan, rfl⟩, ?_⟩
  have hresized : ∀ number,
      BitSet.contains (BitSet.resize bits ((numPoints + 63) / 64)) number = false := fun _ =>
    BitSet.contains_resize hclear _
  constructor
  case length => exact BitSet.length_resize _
  case contains => exact fun node => (hresized node.toNat).trans (by simp)
  case logged =>
    refine ⟨nofun, fun number hset => ?_⟩
    rw [hresized number] at hset
    cases hset

theorem Holds.answer (hholds : dense.Holds numPoints visited) {call : VisitedCall}
    (hcall : call.node.toNat < numPoints) :
    ∃ next, dense.answer call = .ok ((answerHash visited call).1, next) ∧
      next.Holds numPoints (answerHash visited call).2 := by
  cases call with
  | contains node =>
    have hword : node.toNat / 64 < dense.denseVisitedBits.length := by
      rw [VisitedCall.node] at hcall
      rw [hholds.length]
      omega
    refine ⟨dense, ?_, hholds⟩
    refine bind_ok.mpr ⟨(), checkWord_eq hword, ?_⟩
    rw [hholds.contains]
    rfl
  | insert node =>
    have hword : node.toNat / 64 < dense.denseVisitedBits.length := by
      rw [VisitedCall.node] at hcall
      rw [hholds.length]
      omega
    by_cases hvisited : node ∈ visited
    · refine ⟨dense, bind_ok.mpr ⟨(), checkWord_eq hword, ?_⟩, ?_⟩
      · rw [hholds.contains, decide_eq_true hvisited]
        simp [answerHash, hvisited]
      · simpa [answerHash, Finset.insert_eq_of_mem hvisited] using hholds
    · refine ⟨{ denseVisitedBits := BitSet.insert dense.denseVisitedBits node.toNat
                denseVisitedIds := dense.denseVisitedIds ++ [node] },
        bind_ok.mpr ⟨(), checkWord_eq hword, ?_⟩, ?_⟩
      · rw [hholds.contains, decide_eq_false hvisited]
        simp [answerHash, hvisited]
      · constructor
        case length => exact BitSet.length_insert.trans hholds.length
        case contains =>
          intro other
          dsimp only
          rw [BitSet.contains_insert hword, hholds.contains, ← Bool.decide_or]
          apply decide_eq_decide.mpr
          simp only [answerHash, Finset.mem_insert, UInt32.toNat_inj, eq_comm]
        case logged =>
          constructor
          · intro other hother
            rw [BitSet.length_insert]
            rcases List.mem_append.mp hother with hold | hnew
            · exact hholds.logged.words other hold
            · rw [List.mem_singleton.mp hnew]
              exact hword
          · intro number hset
            dsimp only at hset
            rw [BitSet.contains_insert hword, Bool.or_eq_true, decide_eq_true_eq] at hset
            rcases hset with hnew | hold
            · exact ⟨node, List.mem_append_right _ (List.mem_singleton_self node), hnew⟩
            · obtain ⟨other, hother, hsame⟩ := hholds.logged.logged number hold
              exact ⟨other, List.mem_append_left _ hother, hsame⟩

theorem Holds.answers {calls : List VisitedCall} (hholds : dense.Holds numPoints visited)
    (hcalls : ∀ call ∈ calls, call.node.toNat < numPoints) :
    ∃ next, dense.answers calls = .ok (answersHash calls visited, next) ∧ next.Logged := by
  induction calls generalizing dense visited with
  | nil => exact ⟨dense, rfl, hholds.logged⟩
  | cons call calls ih =>
    obtain ⟨hcall, hcalls⟩ := List.forall_mem_cons.mp hcalls
    obtain ⟨middle, hanswer, hmiddle⟩ := hholds.answer hcall
    obtain ⟨next, hrest, hnext⟩ := ih hmiddle hcalls
    exact ⟨next, bind_ok.mpr ⟨_, hanswer, bind_ok.mpr ⟨_, hrest, rfl⟩⟩, hnext⟩

theorem run_eq {queries : List VisitedQuery} (hlogged : dense.Logged) :
    run queries dense = .ok (queries.map fun query => answersHash query.calls ∅) := by
  induction queries generalizing dense with
  | nil => rfl
  | cons query queries ih =>
    obtain ⟨begun, hstart, hholds⟩ := start_holds hlogged query.numPoints
    obtain ⟨next, hanswers, hnext⟩ := hholds.answers query.bounded
    exact bind_ok.mpr ⟨begun, hstart, bind_ok.mpr ⟨_, hanswers,
      bind_ok.mpr ⟨_, ih hnext, rfl⟩⟩⟩

theorem logged_nothing : ({} : DenseVisited).Logged where
  words := nofun
  logged number hset := by
    rw [BitSet.contains_of_none List.getElem?_nil] at hset
    cases hset

end DenseVisited

end SkipCell.Search

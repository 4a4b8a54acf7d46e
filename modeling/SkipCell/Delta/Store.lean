import SkipCell.Foundation.AssocMap
import SkipCell.Foundation.Transition

/-! # Inserts, the delta file and the database

Inserts are buffered; a background thread appends the buffer to the delta file,
applies it to the index in memory and removes the file. `save` applies the buffer
and writes the whole index to the database file; `load` reads that file and replays
the delta file. A crash loses what is in memory. Every place where the source can
be interrupted between two effects on the files is a state of its own.
-/

namespace SkipCell.Delta

open Foundation

/-- An insert, with its place in the order of all inserts. -/
structure Record (Vector : Type) where
  label : UInt64
  vector : Vector
  stamp : Nat
  deriving DecidableEq

/-- What `hnsw_index_t` holds for each label; its links are left out. -/
abbrev Graph (Vector : Type) := AssocMap UInt64 (Record Vector)

/-- The database file. The source truncates it before it writes it. -/
inductive Database (Vector : Type)
  | missing
  | truncated
  | saved (graph : Graph Vector)

/-- Where `bg_loop` stands; but for `idle` it holds `bg_mu_`. -/
inductive Background
  | idle
  | flushed
  | applied
  deriving DecidableEq

/-- Where the caller of `save` or `consolidate` stands. In `waiting` it has found
records and waits for `bg_mu_`; in `applied` it holds `bg_mu_`. -/
inductive Client
  | idle
  | waiting (saving : Bool)
  | applied (saving : Bool)
  | consolidated
  | writing
  deriving DecidableEq

/-- `powerlaw_ann_t` and its files. `clock` numbers the inserts and `reached` lists
every record that was ever written to the delta file or to the database. -/
structure State (Vector : Type) where
  clock : Nat := 0
  index : Graph Vector := ∅
  buffer : List (Record Vector) := []
  background : Background := .idle
  client : Client := .idle
  deltaFile : List (Record Vector) := []
  database : Database Vector := .missing
  reached : List (Record Vector) := []

inductive Action (Vector : Type)
  | insert (label : UInt64) (vector : Vector)
  | build (label : UInt64) (vector : Vector)
  | flushToFile
  | applyFlushed
  | removeFlushed
  | consolidate (saving : Bool)
  | applyBuffer
  | removeDelta
  | truncate
  | write
  | load
  | crash

variable {Vector : Type} (capacity : Nat)

/-- `hnsw_index_t::insert`: a known label is overwritten, a new one needs room. -/
def insertRecord (record : Record Vector) (graph : Graph Vector) : Option (Graph Vector) :=
  if record.label ∈ graph then some (graph.insert record.label record)
  else if capacity ≤ graph.entries.length then none
  else some (graph.insert record.label record)

/-- Inserts records up to the first that finds no room; what remains is not inserted. -/
def applyRecords : List (Record Vector) → Graph Vector → Graph Vector × List (Record Vector)
  | [], graph => (graph, [])
  | record :: records, graph =>
    match insertRecord capacity record graph with
    | none => (graph, record :: records)
    | some next => applyRecords records next

/-- The loss of everything in memory. -/
def State.crash (state : State Vector) : State Vector where
  clock := state.clock
  deltaFile := state.deltaFile
  database := state.database
  reached := state.reached

/-- `apply_and_clear`. A record that finds no room leaves the buffer as it is. -/
def State.applyAndClear (state : State Vector) : State Vector × Bool :=
  match applyRecords capacity state.buffer state.index with
  | (index, []) => ({ state with index, buffer := [] }, true)
  | (index, _ :: _) => ({ state with index }, false)

/-- When an action may happen. The caller of `build`, `save` and `load` does one
thing at a time; `insert` only takes the lock of the buffer. -/
def permitted (state : State Vector) : Action Vector → Prop
  | .insert _ _ => True
  | .build _ _ => state.client = .idle
  | .flushToFile => state.background = .idle ∧ state.client ≠ .applied true ∧
      state.client ≠ .applied false ∧ state.buffer.isEmpty = false
  | .applyFlushed => state.background = .flushed
  | .removeFlushed => state.background = .applied
  | .consolidate _ => state.client = .idle
  | .applyBuffer => (state.client = .waiting true ∨ state.client = .waiting false) ∧
      state.background = .idle
  | .removeDelta => state.client = .applied true ∨ state.client = .applied false
  | .truncate => state.client = .consolidated
  | .write => state.client = .writing
  | .load => state.client = .idle
  | .crash => True

instance (state : State Vector) (action : Action Vector) : Decidable (permitted state action) := by
  cases action <;> unfold permitted <;> infer_instance

/-- What an action does. An exception in the background thread ends the process; in
`save` it goes to the caller. -/
def perform (state : State Vector) : Action Vector → State Vector
  | .insert label vector =>
    { state with
      clock := state.clock + 1
      buffer := state.buffer ++ [⟨label, vector, state.clock⟩] }
  | .build label vector =>
    { state with
      clock := state.clock + 1
      index := (applyRecords capacity [⟨label, vector, state.clock⟩] state.index).1 }
  | .flushToFile =>
    { state with
      background := .flushed
      deltaFile := state.deltaFile ++ state.buffer
      reached := state.reached ++ state.buffer }
  | .applyFlushed =>
    match state.applyAndClear capacity with
    | (applied, true) => { applied with background := .applied }
    | (_, false) => state.crash
  | .removeFlushed => { state with background := .idle, deltaFile := [] }
  | .consolidate saving =>
    if state.buffer.isEmpty then
      { state with client := if saving then .consolidated else .idle }
    else { state with client := .waiting saving }
  | .applyBuffer =>
    match state.applyAndClear capacity with
    | (applied, true) =>
      { applied with client := .applied (decide (state.client = .waiting true)) }
    | (applied, false) => { applied with client := .idle }
  | .removeDelta =>
    { state with
      client := if state.client = .applied true then .consolidated else .idle
      deltaFile := [] }
  | .truncate => { state with client := .writing, database := .truncated }
  | .write =>
    { state with
      client := .idle
      database := .saved state.index
      reached := state.reached ++ AssocMap.values state.index }
  | .load =>
    match state.database with
    | .saved graph => { state with index := (applyRecords capacity state.deltaFile graph).1 }
    | .missing | .truncated => state
  | .crash => state.crash

/-- The program from its first start on, with no file yet. -/
def system : Transition (State Vector) (Action Vector) :=
  Transition.guarded (fun state => state = {}) permitted (perform capacity)

/-- What `load` leaves in the index, unless it raises an exception. -/
def loaded (state : State Vector) : Option (Graph Vector) :=
  match state.database with
  | .saved graph =>
    let (index, remaining) := applyRecords capacity state.deltaFile graph
    if remaining.isEmpty then some index else none
  | .missing | .truncated => none

end SkipCell.Delta

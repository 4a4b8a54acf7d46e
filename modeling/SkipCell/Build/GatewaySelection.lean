import SkipCell.Build.Gateways
import SkipCell.Foundation.DecimalText
import SkipCell.Foundation.SortedMap

/-! # The profile of gateways

Each row of the file names a node that two Communities meet at, and its rank. The rows of an edge
become a list in the order of the ranks. Ranks and repeated nodes are looked for in that order,
and numbers are cut to 32 bits when they are read.
-/

namespace SkipCell.Build

open Foundation Sidecar

/-- The four numbers of a row that are kept. -/
structure GatewayRow where
  source : Nat
  target : Nat
  node : Nat
  rank : Nat

def GatewayRow.edge (row : GatewayRow) : Nat ×ₗ Nat := toLex (row.source, row.target)

/-- What `std::sort` orders the nodes of an edge by, and the node. -/
def GatewayRow.ranked (row : GatewayRow) : Nat × Nat := (row.rank, row.node)

def splitCsvRow (line : List Char) : List (List Char) := getlines ',' line

/-- `static_cast<uint32_t>(std::stoul(..))`. -/
def readU32 (field : List Char) : Except String Nat := do
  let value ← stoul field
  .ok (value % 2 ^ 32)

def parseGatewayRow (fields : List (List Char)) : Except String GatewayRow := do
  let source ← readU32 (fields.getD 0 [])
  let target ← readU32 (fields.getD 1 [])
  let node ← readU32 (fields.getD 2 [])
  let rank ← readU32 (fields.getD 3 [])
  .ok { source, target, node, rank }

abbrev RankedGateways := SortedMap (Nat ×ₗ Nat) (List (Nat × Nat))

/-- A line behind the header; `position` counts from the first of them. -/
def readGatewayRow (position : Nat) (line : List Char) (ranked : RankedGateways) :
    Except Error RankedGateways :=
  if line = [] then .ok ranked
  else do
    let row := "Gateway selection CSV row " ++ toString (position + 2)
    reject ((splitCsvRow line).length ≠ 6)
      (.invalidArgument (row ++ " has an unexpected field count"))
    match parseGatewayRow (splitCsvRow line) with
    | .error what => .error (.invalidArgument (row ++ " is invalid: " ++ what))
    | .ok parsed => .ok (SortedMap.push parsed.edge parsed.ranked ranked)

def RankBefore (left right : Nat × Nat) : Prop :=
  left.1 < right.1 ∨ left.1 = right.1 ∧ left.2 ≤ right.2

instance : DecidableRel RankBefore := fun _ _ => inferInstanceAs (Decidable (_ ∨ _))

/-- The nodes of an edge, of sorted entries. -/
def selectNodes (entries : List (Nat × Nat)) : Except Error (List Nat) :=
  scan (fun position entry nodes => do
      reject (entry.1 ≠ position ∨
          position ≠ 0 ∧ (entries[position - 1]?.map Prod.snd) = some entry.2)
        (.invalidArgument "Gateway selection CSV ranks must be contiguous with unique nodes")
      .ok (nodes ++ [entry.2])) 0 entries []

def selectEdge (config : BuildConfig) (group : (Nat ×ₗ Nat) × List (Nat × Nat)) :
    Except Error ((Nat × Nat) × List Nat) := do
  let entries := group.2.insertionSort RankBefore
  reject (config.gatewayCount.toNat < entries.length)
    (.invalidArgument "Gateway selection CSV exceeds the configured Gateway count")
  let nodes ← selectNodes entries
  .ok (ofLex group.1, nodes)

def kGatewaySelectionHeader : List Char :=
  "source_community,target_community,gateway_node,rank,utility,rcni".toList

/-- `load_gateway_selection`, where `files` is what can be opened. -/
def loadGatewaySelection (config : BuildConfig) (files : String → Option (List Char)) :
    Except Error GatewayProfile :=
  if config.gatewaySelectionPath = "" then .ok []
  else
    match files config.gatewaySelectionPath with
    | none => .error (.invalidArgument
        ("Failed to open Gateway selection CSV: " ++ config.gatewaySelectionPath))
    | some text => do
      let lines := getlines '\n' text
      reject (lines.head? ≠ some kGatewaySelectionHeader)
        (.invalidArgument "Gateway selection CSV has an unexpected header")
      let ranked ← scan readGatewayRow 0 lines.tail []
      ranked.mapM (selectEdge config)

def dataRows (text : List Char) : List (List (List Char)) :=
  ((getlines '\n' text).tail.filter fun line => line ≠ []).map splitCsvRow

def writtenRow (fields : List (List Char)) : Option GatewayRow := do
  let source ← numeral (fields.getD 0 [])
  let target ← numeral (fields.getD 1 [])
  let node ← numeral (fields.getD 2 [])
  let rank ← numeral (fields.getD 3 [])
  some { source, target, node, rank }

/-- The profile has the rows of the file: the ranks of an edge are the places in its list, and
no node is listed twice. -/
structure FollowsText (text : List Char) (profile : GatewayProfile) : Prop where
  numbers : ∀ fields ∈ dataRows text, ∃ row, writtenRow fields = some row
  edges : (profile.map Prod.fst).Nodup ∧ ∀ edge, edge ∈ profile.map Prod.fst ↔
    ∃ row ∈ (dataRows text).filterMap writtenRow, (row.source, row.target) = edge
  ranks : ∀ edge nodes, (edge, nodes) ∈ profile →
    ((((dataRows text).filterMap writtenRow).filter fun row =>
      (row.source, row.target) = edge).map GatewayRow.ranked).Perm
        (nodes.zipIdx.map Prod.swap)
  distinct : ∀ edge nodes, (edge, nodes) ∈ profile → nodes.Nodup

/-- Every number of a row is written out and fits into 32 bits, and an edge does not come back to
a node after other ranks. -/
structure PlainText (text : List Char) : Prop where
  numbers : ∀ fields ∈ dataRows text, ∃ row, writtenRow fields = some row ∧
    row.source < 2 ^ 32 ∧ row.target < 2 ^ 32 ∧ row.node < 2 ^ 32 ∧ row.rank < 2 ^ 32
  apart : ∀ first ∈ (dataRows text).filterMap writtenRow,
    ∀ second ∈ (dataRows text).filterMap writtenRow,
      first.edge = second.edge → first.node = second.node → second.rank ≤ first.rank + 1

theorem readU32_lt {field : List Char} {value : Nat} (hread : readU32 field = .ok value) :
    value < 2 ^ 32 := by
  simp only [readU32, bind_ok, Except.ok.injEq] at hread
  obtain ⟨_, _, rfl⟩ := hread
  exact Nat.mod_lt _ (by decide)

theorem readU32_numeral {field : List Char} {value : Nat} (hnumeral : numeral field = some value)
    (hvalue : value < 2 ^ 32) : readU32 field = .ok value := by
  simp only [readU32, bind_ok, Except.ok.injEq]
  exact ⟨value, stoul_numeral hnumeral (by omega), Nat.mod_eq_of_lt hvalue⟩

/-- All numbers of a row are 32 bits wide. -/
def GatewayRow.Small (row : GatewayRow) : Prop :=
  row.source < 2 ^ 32 ∧ row.target < 2 ^ 32 ∧ row.node < 2 ^ 32 ∧ row.rank < 2 ^ 32

theorem small_of_parse {fields : List (List Char)} {row : GatewayRow}
    (hparse : parseGatewayRow fields = .ok row) : row.Small := by
  simp only [parseGatewayRow, bind_ok, Except.ok.injEq] at hparse
  obtain ⟨source, hsource, target, htarget, node, hnode, rank, hrank, rfl⟩ := hparse
  exact ⟨readU32_lt hsource, readU32_lt htarget, readU32_lt hnode, readU32_lt hrank⟩

theorem parse_of_written {fields : List (List Char)} {row : GatewayRow}
    (hwritten : writtenRow fields = some row) (hsmall : row.Small) :
    parseGatewayRow fields = .ok row := by
  simp only [writtenRow, Option.bind_eq_bind, Option.bind_eq_some_iff, Option.some.injEq]
    at hwritten
  obtain ⟨source, hsource, target, htarget, node, hnode, rank, hrank, rfl⟩ := hwritten
  simp only [parseGatewayRow, bind_ok, Except.ok.injEq]
  exact ⟨source, readU32_numeral hsource hsmall.1, target, readU32_numeral htarget hsmall.2.1,
    node, readU32_numeral hnode hsmall.2.2.1, rank, readU32_numeral hrank hsmall.2.2.2, rfl⟩

def GatewayRow.entry (row : GatewayRow) : (Nat ×ₗ Nat) × (Nat × Nat) := (row.edge, row.ranked)

/-- The rows that are read from some fields. -/
def ReadAs (fields : List (List (List Char))) (rows : List GatewayRow) : Prop :=
  List.Forall₂ (fun fields row => parseGatewayRow fields = .ok row) fields rows

theorem readGatewayRow_eq_ok {position : Nat} {line : List Char} {ranked next : RankedGateways}
    (hread : readGatewayRow position line ranked = .ok next) :
    (line = [] ∧ next = ranked) ∨ (line ≠ [] ∧ ∃ row, parseGatewayRow (splitCsvRow line) = .ok row ∧
      next = SortedMap.push row.edge row.ranked ranked) := by
  unfold readGatewayRow at hread
  split at hread
  next hempty => exact .inl ⟨hempty, (Except.ok.inj hread).symm⟩
  next hsome =>
    simp only [bind_ok, reject_ok, exists_const] at hread
    obtain ⟨_, hread⟩ := hread
    split at hread
    next => cases hread
    next row hparse => exact .inr ⟨hsome, row, hparse, (Except.ok.inj hread).symm⟩

theorem readGatewayRows {lines : List (List Char)} {start : Nat} {before after : RankedGateways}
    {seen : List ((Nat ×ₗ Nat) × (Nat × Nat))}
    (hscan : scan readGatewayRow start lines before = .ok after)
    (hbefore : SortedMap.Groups seen before) :
    ∃ rows, ReadAs ((lines.filter fun line => line ≠ []).map splitCsvRow) rows ∧
      SortedMap.Groups (seen ++ rows.map GatewayRow.entry) after := by
  induction lines generalizing start before seen with
  | nil =>
    obtain rfl := Except.ok.inj hscan
    exact ⟨[], .nil, by rwa [List.map_nil, List.append_nil]⟩
  | cons line lines ih =>
    obtain ⟨next, hread, hrest⟩ := bind_ok.mp hscan
    rcases readGatewayRow_eq_ok hread with ⟨rfl, rfl⟩ | ⟨hsome, row, hparse, rfl⟩
    · exact ih hrest hbefore
    · obtain ⟨rows, hrows, hgroups⟩ := ih hrest (hbefore.push row.entry)
      refine ⟨row :: rows, ?_, ?_⟩
      · have hfilter : ((line :: lines).filter fun line => line ≠ []) =
            line :: lines.filter fun line => line ≠ [] :=
          List.filter_cons_of_pos (decide_eq_true hsome)
        rw [hfilter, List.map_cons]
        exact .cons hparse hrows
      · rwa [List.append_assoc, List.singleton_append] at hgroups

theorem selectNodes_eq_ok {entries : List (Nat × Nat)} {nodes : List Nat}
    (hselect : selectNodes entries = .ok nodes) :
    entries = nodes.zipIdx.map Prod.swap ∧
      ∀ position node, nodes[position]? = some node → nodes[position + 1]? ≠ some node := by
  have hnodes : nodes = entries.map Prod.snd := by
    have hrun := @scan_invariant _ _ _ _
      (fun position nodes => nodes = (entries.take position).map Prod.snd) _ _ _ _ hselect rfl
      fun index entry before next hentry hbefore hstep => by
        simp only [bind_ok, reject_ok, Except.ok.injEq] at hstep
        obtain ⟨_, _, rfl⟩ := hstep
        rw [hbefore, Nat.zero_add, List.take_add_one, hentry, Option.toList_some, List.map_append,
          List.map_singleton]
    rwa [Nat.zero_add, List.take_length] at hrun
  have hstep : ∀ {position : Nat} {entry : Nat × Nat}, entries[position]? = some entry →
      entry.1 = position ∧
        ¬ (position ≠ 0 ∧ entries[position - 1]?.map Prod.snd = some entry.2) := by
    intro position entry hentry
    obtain ⟨before, after, hbody⟩ := scan_accepts hselect hentry
    simp only [bind_ok, reject_ok, Nat.zero_add] at hbody
    obtain ⟨_, hnot, _⟩ := hbody
    rw [not_or, not_not] at hnot
    exact hnot
  constructor
  · refine List.ext_getElem? fun position => ?_
    rw [List.getElem?_map, List.getElem?_zipIdx, hnodes, List.getElem?_map]
    cases hentry : entries[position]? with
    | none => rfl
    | some entry =>
      rw [Option.map_some, Option.map_some, Option.map_some, Nat.zero_add]
      exact congrArg some (Prod.ext (hstep hentry).1 rfl)
  · intro position node hnode hnext
    rw [hnodes, List.getElem?_map, Option.map_eq_some_iff] at hnext
    obtain ⟨entry, hentry, rfl⟩ := hnext
    rw [hnodes, List.getElem?_map] at hnode
    exact (hstep hentry).2 ⟨Nat.succ_ne_zero _, by rwa [Nat.add_sub_cancel]⟩

/-- What is known of a profile that was read from rows. -/
structure RowsGrouped (config : BuildConfig) (rows : List GatewayRow) (profile : GatewayProfile) :
    Prop where
  edges : (profile.map Prod.fst).Nodup ∧ ∀ edge, edge ∈ profile.map Prod.fst ↔
    ∃ row ∈ rows, (row.source, row.target) = edge
  ranks : ∀ edge nodes, (edge, nodes) ∈ profile →
    ((rows.filter fun row => (row.source, row.target) = edge).map GatewayRow.ranked).Perm
      (nodes.zipIdx.map Prod.swap)
  count : ∀ edge nodes, (edge, nodes) ∈ profile → nodes.length ≤ config.gatewayCount.toNat
  apart : ∀ edge nodes, (edge, nodes) ∈ profile → ∀ position node,
    nodes[position]? = some node → nodes[position + 1]? ≠ some node

theorem valuesOf_rows (rows : List GatewayRow) (edge : Nat ×ₗ Nat) :
    SortedMap.valuesOf (rows.map GatewayRow.entry) edge =
      (rows.filter fun row => (row.source, row.target) = ofLex edge).map GatewayRow.ranked := by
  rw [SortedMap.valuesOf, List.filter_map, List.map_map]
  rfl

variable {rows : List GatewayRow}

theorem rowsGrouped {config : BuildConfig} {ranked : RankedGateways} {profile : GatewayProfile}
    (hgroups : SortedMap.Groups (rows.map GatewayRow.entry) ranked)
    (hprofile : ranked.mapM (selectEdge config) = .ok profile) :
    RowsGrouped config rows profile := by
  have hkeys : profile.map Prod.fst = ranked.map fun group => ofLex group.1 := by
    have hall := mapM_eq_ok.mp hprofile
    clear hprofile hgroups
    induction hall with
    | nil => rfl
    | cons hselect _ ih =>
      simp only [selectEdge, bind_ok, reject_ok, Except.ok.injEq] at hselect
      obtain ⟨_, _, nodes, _, rfl⟩ := hselect
      rw [List.map_cons, List.map_cons, ih]
  have hlist : ∀ edge nodes, (edge, nodes) ∈ profile → nodes.length ≤ config.gatewayCount.toNat ∧
      ((rows.filter fun row => (row.source, row.target) = edge).map GatewayRow.ranked).Perm
        (nodes.zipIdx.map Prod.swap) ∧ ∀ position node,
          nodes[position]? = some node → nodes[position + 1]? ≠ some node := by
    intro edge nodes hmem
    obtain ⟨group, hgroup, hselect⟩ := exists_of_mapM_eq_ok hprofile hmem
    simp only [selectEdge, bind_ok, reject_ok, Except.ok.injEq, Prod.mk.injEq]
      at hselect
    obtain ⟨_, hcount, _, hnodes, rfl, rfl⟩ := hselect
    obtain ⟨hsorted, hapart⟩ := selectNodes_eq_ok hnodes
    have hperm := List.perm_insertionSort RankBefore group.2
    have hvalues := (hgroups.of_mem hgroup).1
    rw [hsorted] at hperm hcount
    refine ⟨by simpa using hcount, ?_, hapart⟩
    rw [← valuesOf_rows, ← hvalues]
    exact hperm.symm
  refine ⟨⟨?_, fun edge => ?_⟩, fun edge nodes hmem => (hlist edge nodes hmem).2.1,
    fun edge nodes hmem => (hlist edge nodes hmem).1, fun edge nodes hmem =>
      (hlist edge nodes hmem).2.2⟩
  · rw [hkeys, List.Nodup, List.pairwise_map]
    exact hgroups.sorted.imp fun hless hsame => ne_of_lt hless (ofLex_inj.mp hsame)
  · have hmem := hgroups.mem_keys (toLex edge)
    rw [hkeys]
    constructor
    · intro hkey
      obtain ⟨group, hgroup, rfl⟩ := List.mem_map.mp hkey
      obtain ⟨entry, hentry, hsame⟩ := List.mem_map.mp (hmem.mp (List.mem_map_of_mem hgroup))
      obtain ⟨row, hrow, rfl⟩ := List.mem_map.mp hentry
      exact ⟨row, hrow, toLex_inj.mp hsame⟩
    · rintro ⟨row, hrow, rfl⟩
      obtain ⟨group, hgroup, hsame⟩ := List.mem_map.mp
        (hmem.mpr (List.mem_map.mpr ⟨row.entry, List.mem_map_of_mem hrow, rfl⟩))
      exact List.mem_map.mpr ⟨group, hgroup, congrArg ofLex hsame⟩

theorem loadGatewaySelection_eq_ok {config : BuildConfig} {files : String → Option (List Char)}
    {profile : GatewayProfile} {text : List Char} (hpath : config.gatewaySelectionPath ≠ "")
    (hfile : files config.gatewaySelectionPath = some text)
    (hload : loadGatewaySelection config files = .ok profile) :
    ∃ rows, ReadAs (dataRows text) rows ∧ RowsGrouped config rows profile := by
  simp only [loadGatewaySelection, if_neg hpath, hfile, bind_ok, reject_ok, exists_const] at hload
  obtain ⟨_, ranked, hscan, hprofile⟩ := hload
  obtain ⟨rows, hrows, hgroups⟩ := readGatewayRows hscan .nil
  exact ⟨rows, hrows, rowsGrouped hgroups hprofile⟩

theorem ReadAs.small {fields : List (List (List Char))} (hrows : ReadAs fields rows) :
    ∀ row ∈ rows, row.Small := by
  induction hrows with
  | nil => simp
  | cons hparse _ ih => exact List.forall_mem_cons.mpr ⟨small_of_parse hparse, ih⟩

theorem ReadAs.eq_written {fields : List (List (List Char))} (hrows : ReadAs fields rows)
    (hwritten : ∀ entry ∈ fields, ∃ row, writtenRow entry = some row ∧ row.Small) :
    fields.filterMap writtenRow = rows := by
  induction hrows with
  | nil => rfl
  | cons hparse _ ih =>
    obtain ⟨hfirst, hrest⟩ := List.forall_mem_cons.mp hwritten
    obtain ⟨row, hrow, hsmall⟩ := hfirst
    obtain rfl := Except.ok.inj (hparse.symm.trans (parse_of_written hrow hsmall))
    rw [List.filterMap_cons, hrow, ih hrest]

theorem mem_zipIdx_swap {nodes : List Nat} {entry : Nat × Nat} :
    entry ∈ nodes.zipIdx.map Prod.swap ↔ nodes[entry.1]? = some entry.2 := by
  rw [List.mem_map]
  constructor
  · rintro ⟨other, hother, rfl⟩
    exact List.mem_zipIdx_iff_getElem?.mp hother
  · intro hnode
    exact ⟨entry.swap, List.mem_zipIdx_iff_getElem?.mpr hnode, Prod.swap_swap entry⟩

section

variable {rows : List GatewayRow} {edge : Nat × Nat} {nodes : List Nat}
  (hranks : ((rows.filter fun row => (row.source, row.target) =
    edge).map GatewayRow.ranked).Perm (nodes.zipIdx.map Prod.swap))
include hranks

theorem getElem?_of_row {row : GatewayRow} (hrow : row ∈ rows)
    (hedge : (row.source, row.target) = edge) : nodes[row.rank]? = some row.node := by
  have hmem : row.ranked ∈ nodes.zipIdx.map Prod.swap :=
    hranks.mem_iff.mp (List.mem_map_of_mem (List.mem_filter.mpr ⟨hrow, decide_eq_true hedge⟩))
  exact mem_zipIdx_swap.mp hmem

theorem exists_row {position node : Nat} (hnode : nodes[position]? = some node) :
    ∃ row ∈ rows, (row.source, row.target) = edge ∧ row.rank = position ∧ row.node = node := by
  have hentry : (position, node) ∈ nodes.zipIdx.map Prod.swap := mem_zipIdx_swap.mpr hnode
  obtain ⟨row, hrow, hranked⟩ := List.mem_map.mp (hranks.mem_iff.mpr hentry)
  obtain ⟨hmem, hedge⟩ := List.mem_filter.mp hrow
  obtain ⟨hrank, hsame⟩ := Prod.mk.inj hranked
  exact ⟨row, hmem, of_decide_eq_true hedge, hrank, hsame⟩

end

section

variable {config : BuildConfig} {text : List Char} {rows : List GatewayRow}
  {profile : GatewayProfile} (hrows : ReadAs (dataRows text) rows)
  (hgrouped : RowsGrouped config rows profile)
include hrows hgrouped

theorem FollowsText.of_plain (hplain : PlainText text) :
    FollowsText text profile := by
  have hsame := hrows.eq_written fun fields hfields => by
    obtain ⟨row, hrow, hsmall⟩ := hplain.numbers fields hfields
    exact ⟨row, hrow, hsmall⟩
  refine ⟨fun fields hfields => ?_, hsame ▸ hgrouped.edges, hsame ▸ hgrouped.ranks,
    fun edge nodes hmem => ?_⟩
  · obtain ⟨row, hrow, _⟩ := hplain.numbers fields hfields
    exact ⟨row, hrow⟩
  · have hranks := hgrouped.ranks edge nodes hmem
    rw [List.nodup_iff_getElem?_ne_getElem?]
    intro first second hless hinside hequal
    obtain ⟨node, hsecond⟩ : ∃ node, nodes[second]? = some node :=
      ⟨nodes[second], List.getElem?_eq_getElem hinside⟩
    rw [hsecond] at hequal
    obtain ⟨left, hleft, hleftEdge, rfl, rfl⟩ := exists_row hranks hequal
    obtain ⟨right, hright, hrightEdge, rfl, hnode⟩ := exists_row hranks hsecond
    have hnear := hplain.apart left (hsame ▸ hleft) right (hsame ▸ hright)
      (congrArg toLex (hleftEdge.trans hrightEdge.symm)) hnode.symm
    -- so the two are neighbors, which was looked for
    obtain hnext : right.rank = left.rank + 1 := by omega
    exact hgrouped.apart edge nodes hmem left.rank left.node hequal (hnext ▸ hsecond)

theorem FollowsText.plain (hfollows : FollowsText text profile) :
    PlainText text := by
  have hlist : ∀ row ∈ (dataRows text).filterMap writtenRow,
      ∃ nodes, ((row.source, row.target), nodes) ∈ profile ∧ nodes[row.rank]? = some row.node := by
    intro row hrow
    obtain ⟨entry, hentry, hedge⟩ := List.mem_map.mp ((hfollows.edges.2 _).mpr ⟨row, hrow, rfl⟩)
    obtain ⟨edge, nodes⟩ := entry
    obtain rfl := hedge
    exact ⟨nodes, hentry, getElem?_of_row (hfollows.ranks _ _ hentry) hrow rfl⟩
  refine ⟨fun fields hfields => ?_, fun first hfirst second hsecond hedge hnode => ?_⟩
  · obtain ⟨row, hrow⟩ := hfollows.numbers fields hfields
    obtain ⟨nodes, hmem, hplace⟩ := hlist row (List.mem_filterMap.mpr ⟨fields, hfields, hrow⟩)
    obtain ⟨read, hread, hsame, -, hnode⟩ := exists_row (hgrouped.ranks _ _ hmem) hplace
    obtain ⟨hsource, htarget, hsmall, -⟩ := hrows.small read hread
    obtain ⟨hsourceEq, htargetEq⟩ := Prod.mk.inj hsame
    have hcount := hgrouped.count _ _ hmem
    have hrank := (List.getElem_of_getElem? hplace).1
    have hwidth := config.gatewayCount.toNat_lt
    exact ⟨row, hrow, hsourceEq ▸ hsource, htargetEq ▸ htarget, hnode ▸ hsmall, by omega⟩
  · obtain ⟨nodes, hmem, hplace⟩ := hlist first hfirst
    obtain ⟨others, hother, hotherPlace⟩ := hlist second hsecond
    have hpair : (second.source, second.target) = (first.source, first.target) :=
      (toLex_inj.mp hedge).symm
    rw [hpair] at hother
    have hsame := List.inj_on_of_nodup_map hfollows.edges.1 hmem hother rfl
    obtain rfl := (Prod.mk.inj hsame).2
    rw [hnode, ← hotherPlace] at hplace
    have hequal := (List.getElem?_inj (List.getElem_of_getElem? (hplace.trans hotherPlace)).1
      (hfollows.distinct _ _ hmem)).mp hplace
    omega

end

/-- A profile that is accepted has the rows of its file exactly when the file is plain. -/
theorem loadGatewaySelection_follows_iff {config : BuildConfig}
    {files : String → Option (List Char)} {profile : GatewayProfile} {text : List Char}
    (hpath : config.gatewaySelectionPath ≠ "")
    (hfile : files config.gatewaySelectionPath = some text)
    (hload : loadGatewaySelection config files = .ok profile) :
    FollowsText text profile ↔ PlainText text := by
  obtain ⟨rows, hrows, hgrouped⟩ := loadGatewaySelection_eq_ok hpath hfile hload
  exact ⟨FollowsText.plain hrows hgrouped, FollowsText.of_plain hrows hgrouped⟩

/-- Two nodes of one edge. -/
def plainProfile : List Char :=
  "source_community,target_community,gateway_node,rank,utility,rcni\n0,1,5,0,0,0\n0,1,6,1,0,0".toList

theorem loadGatewaySelection_follows_two :
    FollowsText plainProfile [((0, 1), [5, 6])] ↔ PlainText plainProfile :=
  @loadGatewaySelection_follows_iff { gatewaySelectionPath := "gateways.csv" }
    (fun _ => some plainProfile) [((0, 1), [5, 6])] plainProfile (by decide) rfl (by decide +kernel)

/-- The first node comes back at the third rank, with a number that is too large and goes on. -/
def wrappedProfile : List Char :=
  ("source_community,target_community,gateway_node,rank,utility,rcni\n0,1,5,0,0,0\n0,1,6,1,0,0\n" ++
    "0,1,4294967301x,2,0,0").toList

/-- The file is accepted, and the node 5 is listed twice. -/
theorem loadGatewaySelection_wrapped : ¬ ∀ (config : BuildConfig)
    (files : String → Option (List Char)) (profile : GatewayProfile) (text : List Char),
    config.gatewaySelectionPath ≠ "" → files config.gatewaySelectionPath = some text →
    loadGatewaySelection config files = .ok profile → FollowsText text profile := by
  intro hclaim
  have hload : loadGatewaySelection { gatewaySelectionPath := "gateways.csv" }
      (fun _ => some wrappedProfile) = .ok [((0, 1), [5, 6, 5])] := by decide +kernel
  have hfollows := hclaim { gatewaySelectionPath := "gateways.csv" } (fun _ => some wrappedProfile)
    _ wrappedProfile (by decide) rfl hload
  have hdistinct := hfollows.distinct (0, 1) [5, 6, 5] List.mem_cons_self
  exact absurd hdistinct (by decide)

end SkipCell.Build

import SkipCell.Build.GatewaySelection
import SkipCell.Sidecar.Gateways
import SkipCell.Sidecar.Settings

/-! # Selecting the Gateways of a finished index again

The edges of an index keep their pairs of Communities, and each gets a new list from its own
Gateways: those of a profile first, and then the others until the list is full.
-/

namespace SkipCell.Build

open Foundation Sidecar

/-! ## The new lists -/

def profileTargets (profile : GatewayProfile) (edge : Edge) : List Nat :=
  (profile.lookup (edge.sourceCommunity.toNat, edge.targetCommunity.toNat)).getD []

def edgeGateways (index : Index) (edge : Edge) : List Gateway :=
  subspan index.gateways edge.gatewayBegin.toNat edge.gatewayCount.toNat

def profiledGateway (range : List Gateway) (target : Nat) : Except Error Gateway :=
  match range.find? fun gateway => gateway.targetNode.toNat = target with
  | none => .error (.invalidArgument
      "Gateway selection CSV target is absent from its profiled source sidecar")
  | some gateway => .ok gateway

/-- The other Gateways are kept in their order until the list is full. -/
def fallbackGateways (gatewayCount : Nat) : List Gateway → List Gateway → List Gateway
  | [], chosen => chosen
  | fallback :: rest, chosen =>
    if chosen.length < gatewayCount then
      fallbackGateways gatewayCount rest
        (if ∃ other ∈ chosen, other.targetNode = fallback.targetNode then chosen
        else chosen ++ [fallback])
    else chosen

def reselectEdge (config : BuildConfig) (profile : GatewayProfile) (index : Index) (edge : Edge)
    (edges : SuperEdges) : Except Error SuperEdges := do
  let range := edgeGateways index edge
  let profiled ← (profileTargets profile edge).mapM (profiledGateway range)
  let chosen := fallbackGateways config.gatewayCount.toNat range profiled
  reject (UInt32.ofNat chosen.length = 0)
    (.invalidArgument "Gateway selection produced an empty directed superedge")
  .ok
    { communityEdges := edges.communityEdges ++
        [{ edge with
            gatewayBegin := .ofNat edges.gateways.length
            gatewayCount := .ofNat chosen.length }]
      gateways := edges.gateways ++ chosen }

def effectiveThreadCount (requested hardware : UInt32) : UInt32 :=
  if requested ≠ 0 then requested else if hardware < 1 then 1 else hardware

/-- The parameters that the source of a reselection was built with. -/
def SameConstruction (hardware : UInt32) (source config : BuildConfig) : Prop :=
  source.communityCount = config.communityCount ∧
    SameDouble source.communityImbalance config.communityImbalance ∧
    source.partitionQuality = config.partitionQuality ∧
    source.partitionProjection = config.partitionProjection ∧
    source.partitionThreads = effectiveThreadCount config.partitionThreads hardware ∧
    source.partitionSeed = config.partitionSeed ∧
    source.gatewayShortlist = config.gatewayShortlist ∧
    source.polarDirectionCount = config.polarDirectionCount ∧
    source.cellPartition = config.cellPartition ∧
    source.cellTargetSize = config.cellTargetSize ∧
    source.blockTargetSize = config.blockTargetSize ∧
    source.sphericalKmeansIterations = config.sphericalKmeansIterations

instance (hardware : UInt32) (source config : BuildConfig) :
    Decidable (SameConstruction hardware source config) := inferInstanceAs (Decidable (_ ∧ _))

/-- The settings of the new index. -/
def reselectedConfig (source config : BuildConfig) : BuildConfig :=
  { source with
    gatewayCount := config.gatewayCount
    gatewayShortlist := config.gatewayShortlist
    gatewaySelectionPath := ""
    gatewaySelectionSourcePath := "" }

/-- The branch of `build_community_polar_sidecar_from_disk` with a source of Gateways, from its
loaded source to the index that is written. -/
def reselectGateways (config : BuildConfig) (hardware : UInt32)
    (files : String → Option (List Char)) (index : Index) : Except Error Index := do
  validateBuildConfig config
  reject (¬ SameConstruction hardware index.config config)
    (.invalidArgument
      "Gateway selection source construction parameters do not match the requested profile")
  let selections ← loadGatewaySelection config files
  let edges ← scan (fun _ => reselectEdge config selections index) 0 index.communityEdges ⟨[], []⟩
  .ok (index.rerouted (reselectedConfig index.config config) edges.communityEdges edges.gateways)

/-! ## One edge -/

def gatewayTargets (gateways : List Gateway) : List Nat :=
  gateways.map fun gateway => gateway.targetNode.toNat

structure Kept (range : List Gateway) (targets : List Nat) (limit : Nat) (chosen : List Gateway) :
    Prop where
  subset : chosen ⊆ range
  profiled : targets <+: gatewayTargets chosen
  bounded : targets.length ≤ limit → chosen.length ≤ limit
  distinct : targets.Nodup → (gatewayTargets chosen).Nodup

theorem profiledGateway_eq_ok {range : List Gateway} {target : Nat} {gateway : Gateway}
    (hfound : profiledGateway range target = .ok gateway) :
    gateway ∈ range ∧ gateway.targetNode.toNat = target := by
  unfold profiledGateway at hfound
  split at hfound
  next => cases hfound
  next other hother =>
    obtain rfl := Except.ok.inj hfound
    have htarget := List.find?_some hother
    exact ⟨List.mem_of_find?_eq_some hother, of_decide_eq_true htarget⟩

theorem profiled_eq_ok {range profiled : List Gateway} {targets : List Nat}
    (hprofiled : targets.mapM (profiledGateway range) = .ok profiled) :
    profiled ⊆ range ∧ gatewayTargets profiled = targets := by
  have hall := mapM_eq_ok.mp hprofiled
  clear hprofiled
  induction hall with
  | nil => exact ⟨List.nil_subset _, rfl⟩
  | cons hfound _ ih =>
    obtain ⟨hmem, htarget⟩ := profiledGateway_eq_ok hfound
    refine ⟨List.cons_subset.mpr ⟨hmem, ih.1⟩, ?_⟩
    rw [gatewayTargets, List.map_cons, htarget]
    exact congrArg _ ih.2

theorem Kept.fallback {range : List Gateway} {targets : List Nat} {limit : Nat}
    {rest chosen : List Gateway} (hrest : rest ⊆ range) (hkept : Kept range targets limit chosen) :
    Kept range targets limit (fallbackGateways limit rest chosen) := by
  induction rest generalizing chosen with
  | nil => exact hkept
  | cons fallback rest ih =>
    obtain ⟨hfallback, hrest⟩ := List.cons_subset.mp hrest
    rw [fallbackGateways]
    split
    next hroom =>
      refine ih hrest ?_
      split
      next => exact hkept
      next hnew =>
        refine ⟨List.append_subset.mpr ⟨hkept.subset, by simpa using hfallback⟩, ?_,
          fun _ => ?_, fun htargets => ?_⟩
        · rw [gatewayTargets, List.map_append]
          exact hkept.profiled.trans (List.prefix_append _ _)
        · rw [List.length_append, List.length_singleton]
          exact hroom
        · rw [gatewayTargets, List.map_append]
          refine List.nodup_append.mpr ⟨hkept.distinct htargets, by simp, ?_⟩
          intro old hold new hnewTarget hsame
          obtain ⟨other, hother, rfl⟩ := List.mem_map.mp hold
          rw [List.map_singleton, List.mem_singleton] at hnewTarget
          exact hnew ⟨other, hother, UInt32.toNat_inj.mp (hsame.trans hnewTarget)⟩
    next => exact hkept

/-- The new record of an edge, whose Gateways begin at `first`. -/
def movedEdge (edge : Edge) (first count : Nat) : Edge :=
  { edge with gatewayBegin := .ofNat first, gatewayCount := .ofNat count }

variable {config : BuildConfig} {profile : GatewayProfile} {index : Index}

theorem reselectEdge_eq_ok {edge : Edge} {edges next : SuperEdges}
    (hreselect : reselectEdge config profile index edge edges = .ok next) :
    ∃ chosen, Kept (edgeGateways index edge) (profileTargets profile edge)
        config.gatewayCount.toNat chosen ∧
      UInt32.ofNat chosen.length ≠ 0 ∧
      next.communityEdges =
        edges.communityEdges ++ [movedEdge edge edges.gateways.length chosen.length] ∧
      next.gateways = edges.gateways ++ chosen := by
  simp only [reselectEdge, bind_ok, reject_ok, Except.ok.injEq] at hreselect
  obtain ⟨profiled, hprofiled, _, hsome, rfl⟩ := hreselect
  obtain ⟨hsubset, htargets⟩ := profiled_eq_ok hprofiled
  refine ⟨_, Kept.fallback (List.Subset.refl _) ⟨hsubset, ?_, fun hcount => ?_, fun hdistinct => ?_⟩,
    hsome, rfl, rfl⟩
  · rw [htargets]
  · rw [← htargets, gatewayTargets, List.length_map] at hcount
    exact hcount
  · rwa [htargets]

/-- The new lists of the first edges, and the records that they get. -/
structure Relisted (config : BuildConfig) (profile : GatewayProfile) (index : Index) (done : Nat)
    (lists : List (List Gateway)) (edges : SuperEdges) : Prop where
  count : lists.length = done
  length : edges.communityEdges.length = done
  gateways : edges.gateways = lists.flatten
  kept : ∀ edge < done, ∃ old list, index.communityEdges[edge]? = some old ∧
    lists[edge]? = some list ∧
    edges.communityEdges[edge]? =
      some (movedEdge old (lists.take edge).flatten.length list.length) ∧
    Kept (edgeGateways index old) (profileTargets profile old) config.gatewayCount.toNat list ∧
    UInt32.ofNat list.length ≠ 0

section Run

variable {config : BuildConfig} {profile : GatewayProfile} {index : Index} {edges : SuperEdges}

theorem Relisted.step {done : Nat} {lists : List (List Gateway)}
    (hlisted : Relisted config profile index done lists edges) {edge : Edge} {next : SuperEdges}
    (hedge : index.communityEdges[done]? = some edge)
    (hreselect : reselectEdge config profile index edge edges = .ok next) :
    ∃ chosen, Relisted config profile index (done + 1) (lists ++ [chosen]) next := by
  obtain ⟨chosen, hkept, hsome, hrecords, hgateways⟩ := reselectEdge_eq_ok hreselect
  have hlistsLength := hlisted.count
  refine ⟨chosen, ?_, ?_, ?_, fun place hplace => ?_⟩
  · rw [List.length_append, List.length_singleton, hlistsLength]
  · rw [hrecords, List.length_append, List.length_singleton, hlisted.length]
  · rw [hgateways, hlisted.gateways, List.flatten_append, List.flatten_singleton]
  · rcases Nat.lt_or_eq_of_le (Nat.le_of_lt_succ hplace) with hbefore | rfl
    · obtain ⟨old, list, hold, hlist, hrecord, hrest⟩ := hlisted.kept place hbefore
      refine ⟨old, list, hold, ?_, ?_, hrest⟩
      · rwa [List.getElem?_append_left (by omega)]
      · rw [hrecords, List.getElem?_append_left (by rw [hlisted.length]; exact hbefore), hrecord,
          List.take_append_of_le_length (by omega)]
    · refine ⟨edge, chosen, hedge, ?_, ?_, hkept, hsome⟩
      · rw [← hlistsLength, List.getElem?_concat_length]
      · rw [hrecords, ← hlisted.length, List.getElem?_concat_length, hlisted.length,
          hlisted.gateways, ← hlistsLength, List.take_left]

theorem relisted_of_scan
    (hscan : scan (fun _ => reselectEdge config profile index) 0 index.communityEdges ⟨[], []⟩ =
      .ok edges) :
    ∃ lists, Relisted config profile index index.communityEdges.length lists edges := by
  have hrun := scan_invariant hscan
    (motive := fun done edges => ∃ lists, Relisted config profile index done lists edges)
    ⟨[], rfl, rfl, rfl, fun edge hedge => absurd hedge (Nat.not_lt_zero edge)⟩
    fun place edge before next hedge hbefore hstep => by
      obtain ⟨lists, hlisted⟩ := hbefore
      rw [Nat.zero_add] at hlisted ⊢
      obtain ⟨chosen, hnext⟩ := hlisted.step hedge hstep
      exact ⟨_, hnext⟩
  rwa [Nat.zero_add] at hrun

end Run

/-! ## The checks of the new edges -/

theorem isChain_insertionSort {values : List Nat} (hdistinct : values.Nodup) :
    (values.insertionSort (· ≤ ·)).IsChain (· ≠ ·) :=
  ((values.perm_insertionSort (· ≤ ·)).nodup_iff.mpr hdistinct).isChain

theorem checkGateways_ok {record : Edge} {first count : Nat}
    (hfits : first + count ≤ index.gateways.length)
    (hgateways : ∀ gateway ∈ subspan index.gateways first count, GatewayOk index record gateway) :
    scan (fun _ gatewayId targets => checkGateway index record gatewayId targets) 0
        (List.range' first count) [] =
      .ok (gatewayTargets (subspan index.gateways first count)) := by
  obtain ⟨last, hlast, htargets⟩ := @scan_total _ _ _
    (fun _ gatewayId targets => checkGateway index record gatewayId targets)
    (fun position targets =>
      targets = gatewayTargets (subspan index.gateways first position)) (List.range' first count) 0
    [] (by simp [gatewayTargets, subspan]) fun place gatewayId targets hplace htargets => by
      rw [Nat.zero_add] at htargets ⊢
      obtain ⟨hinside, rfl⟩ : place < count ∧ first + place = gatewayId := by
        simpa [List.getElem?_eq_some_iff] using hplace
      obtain ⟨gateway, hgateway⟩ : ∃ gateway, index.gateways[first + place]? = some gateway :=
        ⟨_, List.getElem?_eq_getElem (by omega)⟩
      have hdropped : (index.gateways.drop first)[place]? = some gateway := by
        rw [List.getElem?_drop, hgateway]
      have hplaced : (subspan index.gateways first count)[place]? = some gateway := by
        rw [subspan, List.getElem?_take_of_lt hinside, hdropped]
      have hmem := List.mem_of_getElem? hplaced
      obtain ⟨hsource, htarget, hfrom, hto, hpacket⟩ := hgateways gateway hmem
      refine ⟨targets ++ [gateway.targetNode.toNat], ?_, ?_⟩
      · simp only [checkGateway, bind_ok, element_eq_ok, reject_ok, not_or, not_not, Nat.not_le]
        exact ⟨gateway, hgateway, (), ⟨hsource, htarget, hfrom, hto, hpacket⟩, rfl⟩
      · rw [htargets, subspan, subspan, take_succ hdropped, gatewayTargets, gatewayTargets,
          List.map_append, List.map_singleton]
  rw [Nat.zero_add, List.length_range'] at htargets
  rw [hlast, htargets]

/-- An edge with a new list is accepted like the old one. -/
theorem checkEdge_moved {edges : List Edge} {list gateways : List Gateway}
    {source edgeId expected first : Nat} {previous : Option Nat} {next : Nat × Option Nat}
    {old : Edge} (hcheck : checkEdge index source edgeId (expected, previous) = .ok next)
    (hold : index.communityEdges[edgeId]? = some old)
    (hnew : edges[edgeId]? = some (movedEdge old first list.length))
    (hlist : subspan gateways first list.length = list)
    (hfits : first + list.length ≤ gateways.length) (haddressed : gateways.length < 2 ^ 64)
    (hsubset : list ⊆ edgeGateways index old) (hdistinct : (gatewayTargets list).Nodup)
    (hcount : list.length ≤ config.gatewayCount.toNat) (hsome : UInt32.ofNat list.length ≠ 0) :
    checkEdge (index.rerouted config edges gateways) source edgeId (first, previous) =
      .ok (first + list.length, next.2) := by
  obtain ⟨record, hrecord, -, hok, -⟩ := checkEdge_eq_ok hcheck
  obtain rfl := Option.some.inj (hold.symm.trans hrecord)
  simp only [checkEdge, bind_ok, element_eq_ok, reject_ok, checkedAdd_eq_ok, not_or,
    not_not, Nat.not_le] at hcheck
  obtain ⟨other, hother, _, ⟨hsource, htarget, hapart, hcross, -, -, -⟩, _, -, _,
    ⟨-, hprevious⟩, _, -, _, -, _, -, hnext⟩ := hcheck
  obtain rfl := Option.some.inj (hold.symm.trans hother)
  obtain rfl := Except.ok.inj hnext
  have hsmall : list.length < 2 ^ 32 := hcount.trans_lt config.gatewayCount.toNat_lt
  have hfirst : (UInt64.ofNat first).toNat = first :=
    UInt64.toNat_ofNat_of_lt' (show first < 2 ^ 64 by omega)
  have hwidth : (UInt32.ofNat list.length).toNat = list.length :=
    UInt32.toNat_ofNat_of_lt' (show list.length < 2 ^ 32 by omega)
  have hgateways : ∀ gateway ∈ list,
      GatewayOk (index.rerouted config edges gateways) (movedEdge old first list.length)
        gateway := by
    intro gateway hgateway
    obtain ⟨hsourceBound, htargetBound, hfrom, hto, hpacket⟩ :=
      hok.gateways gateway (hsubset hgateway)
    exact ⟨hsourceBound, htargetBound, hfrom, hto, hpacket⟩
  have hscan := @checkGateways_ok (index.rerouted config edges gateways)
    (movedEdge old first list.length) first list.length hfits (by rwa [hlist])
  rw [hlist] at hscan
  simp only [checkEdge, bind_ok, element_eq_ok, reject_ok, checkedAdd_eq_ok, not_or,
    not_not, Nat.not_le]
  refine ⟨movedEdge old first list.length, hnew, (), ⟨hsource, htarget, hapart, hcross, hsome,
    ?_, hfirst⟩, first + list.length, ?_, (), ⟨Nat.not_lt.mpr hfits, hprevious⟩,
    gatewayTargets list, ?_, (), isChain_insertionSort hdistinct, first + list.length, ?_, rfl⟩
  · intro hless
    have hlarge : config.gatewayCount.toNat < (UInt32.ofNat list.length).toNat := hless
    omega
  · change (UInt64.ofNat first).toNat + (UInt32.ofNat list.length).toNat < 2 ^ 64 ∧
      (UInt64.ofNat first).toNat + (UInt32.ofNat list.length).toNat = _
    rw [hfirst, hwidth]
    exact ⟨by omega, rfl⟩
  · change scan _ 0 (List.range' (UInt64.ofNat first).toNat (UInt32.ofNat list.length).toNat) [] = _
    rw [hfirst, hwidth]
    exact hscan
  · change first + (UInt32.ofNat list.length).toNat < 2 ^ 64 ∧
      first + (UInt32.ofNat list.length).toNat = _
    rw [hwidth]
    exact ⟨by omega, rfl⟩

section Accepted

variable {config : BuildConfig} {profile : GatewayProfile} {index : Index} {edges : SuperEdges}
  {lists : List (List Gateway)}

theorem gateways_lt (accepted : Accepted index) : index.gateways.length < 2 ^ 64 := by
  refine scan_invariant (motive := fun _ next => next < 2 ^ 64) accepted.edges (by decide) ?_
  intro source record next after _ hnext hcheck
  simp only [checkSourceEdges, bind_ok, element_eq_ok] at hcheck
  obtain ⟨_, _, _, _, reached, hscan, hafter⟩ := hcheck
  rw [← Except.ok.inj hafter]
  refine scan_invariant (motive := fun _ (state : Nat × Option Nat) => state.1 < 2 ^ 64) hscan
    hnext ?_
  intro position edgeId state following _ _ hedge
  simp only [checkEdge, bind_ok, checkedAdd_eq_ok] at hedge
  obtain ⟨_, _, _, _, _, _, _, _, _, _, _, _, total, ⟨hsmall, rfl⟩, hfollowing⟩ := hedge
  rw [← Except.ok.inj hfollowing]
  exact hsmall

theorem Kept.length_le {range chosen : List Gateway} {targets : List Nat} {limit : Nat}
    (hkept : Kept range targets limit chosen) (htargets : targets.Nodup) :
    chosen.length ≤ range.length := by
  have hdistinct : chosen.Nodup := (hkept.distinct htargets).of_map _
  exact (hdistinct.subperm hkept.subset).length_le

theorem profileTargets_bounded {files : String → Option (List Char)}
    (hprofile : loadGatewaySelection config files = .ok profile) (edge : Edge) :
    (profileTargets profile edge).length ≤ config.gatewayCount.toNat := by
  unfold profileTargets
  cases hlookup : profile.lookup (edge.sourceCommunity.toNat, edge.targetCommunity.toNat) with
  | none => exact Nat.zero_le _
  | some nodes =>
    obtain ⟨before, behind, hlist, -⟩ := List.lookup_eq_some_iff.mp hlookup
    have hmem : ((edge.sourceCommunity.toNat, edge.targetCommunity.toNat), nodes) ∈ profile := by
      rw [hlist]
      exact List.mem_append_right _ List.mem_cons_self
    by_cases hpath : config.gatewaySelectionPath = ""
    · rw [loadGatewaySelection, if_pos hpath] at hprofile
      rw [← Except.ok.inj hprofile] at hmem
      exact absurd hmem List.not_mem_nil
    · cases hfile : files config.gatewaySelectionPath with
      | none =>
        rw [loadGatewaySelection, if_neg hpath, hfile] at hprofile
        cases hprofile
      | some text =>
        obtain ⟨rows, -, hgrouped⟩ := loadGatewaySelection_eq_ok hpath hfile hprofile
        exact hgrouped.count _ _ hmem

section

variable (accepted : Accepted index)
  (hlisted : Relisted config profile index index.communityEdges.length lists edges)
  (hdistinct : ∀ edge ∈ index.communityEdges, (profileTargets profile edge).Nodup)
include accepted hlisted hdistinct

theorem Relisted.length_le :
    edges.gateways.length ≤ index.gateways.length := by
  have htiles := accepted.edges_ok.tiles
  have hranges : index.edgeGatewayRanges.length = index.communityEdges.length :=
    length_numberedRanges
  rw [← hranges, List.take_length] at htiles
  rw [hlisted.gateways, ← Nat.zero_add lists.flatten.length]
  refine htiles.length_flatten_le (hlisted.count.trans hranges.symm) ?_
  intro place range list hrange hlist
  have hplace := (List.getElem_of_getElem? hrange).1
  rw [hranges] at hplace
  obtain ⟨old, kept, hold, hkeptList, -, hkept, -⟩ := hlisted.kept place hplace
  obtain rfl := Option.some.inj (hlist.symm.trans hkeptList)
  rw [Index.edgeGatewayRanges, getElem?_numberedRanges hold] at hrange
  obtain rfl := Option.some.inj hrange
  exact (hkept.length_le (hdistinct old (List.mem_of_getElem? hold))).trans (List.length_take_le _ _)

theorem Relisted.checkEdges
    (hbounded : ∀ edge, (profileTargets profile edge).length ≤ config.gatewayCount.toNat)
    {settings : BuildConfig} (hcount : settings.gatewayCount = config.gatewayCount) :
    scan (fun source (_ : Community) next =>
        checkSourceEdges (index.rerouted settings edges.communityEdges edges.gateways) source next) 0
      index.communities 0 = .ok edges.gateways.length := by
  have hglobals := checkGlobals_eq_ok accepted.globals
  have haddressed := (hlisted.length_le accepted hdistinct).trans_lt (gateways_lt accepted)
  have hoffsets : ∀ source first, index.communityEdgeOffsets[source]? = some first →
      ∀ last, index.communityEdgeOffsets[source + 1]? = some last → first.toNat ≤ last.toNat := by
    intro source first hfirst last hlast
    obtain ⟨hlow, rfl⟩ := List.getElem_of_getElem? hfirst
    obtain ⟨hhigh, rfl⟩ := List.getElem_of_getElem? hlast
    exact List.isChain_iff_getElem.mp hglobals.sorted source hhigh
  obtain ⟨final, hfinal, last, hlast, hreached⟩ := @scan_simulates _ _ _
    (fun source (_ : Community) next => checkSourceEdges index source next) _
    (fun source (_ : Community) next =>
      checkSourceEdges (index.rerouted settings edges.communityEdges edges.gateways) source next)
    (fun source _ next => ∃ first, index.communityEdgeOffsets[source]? = some first ∧
      next = (lists.take first.toNat).flatten.length) _ _ _ _ 0 accepted.edges
    ⟨0, by rw [← List.head?_eq_getElem?, hglobals.firstEdge], rfl⟩
    (by
      intro source record next follower after _ hrelated hcheck
      obtain ⟨first, hfirst, rfl⟩ := hrelated
      rw [Nat.zero_add] at hfirst hcheck ⊢
      simp only [checkSourceEdges, bind_ok, element_eq_ok] at hcheck
      obtain ⟨other, hother, last, hlast, ⟨reached, previous⟩, hscan, hafter⟩ := hcheck
      obtain rfl := Option.some.inj (hfirst.symm.trans hother)
      obtain ⟨final, hfinal, hsame, -⟩ := @scan_simulates _ _ _
        (fun _ edgeId state => checkEdge index source edgeId state) _
        (fun _ edgeId state => checkEdge
          (index.rerouted settings edges.communityEdges edges.gateways) source edgeId state)
        (fun position (state other : Nat × Option Nat) =>
          other.1 = (lists.take (first.toNat + position)).flatten.length ∧ other.2 = state.2)
        _ _ _ _ ((lists.take first.toNat).flatten.length, none) hscan ⟨rfl, rfl⟩
        (by
          rintro position edgeId ⟨expected, target⟩ ⟨begin, other⟩ following hedgeId
            ⟨hbegin, hother⟩ hedge
          dsimp only at hbegin hother
          subst hbegin hother
          rw [Nat.zero_add]
          obtain ⟨hposition, rfl⟩ : position < last.toNat - first.toNat ∧
              first.toNat + position = edgeId := by
            simpa [List.getElem?_eq_some_iff] using hedgeId
          obtain ⟨record, hrecord, -⟩ := checkEdge_eq_ok hedge
          have hplace := (List.getElem_of_getElem? hrecord).1
          obtain ⟨old, list, hold, hlist, hnew, hkept, hsome⟩ :=
            hlisted.kept (first.toNat + position) hplace
          have hend : (lists.take (first.toNat + position)).flatten.length + list.length ≤
              edges.gateways.length := by
            rw [← length_take_succ hlist, hlisted.gateways]
            exact length_flatten_take lists _
          have hmoved := @checkEdge_moved settings index edges.communityEdges list edges.gateways
            source _ _ _ _ _ old hedge hold hnew
            (by rw [hlisted.gateways]; exact subspan_flatten_take hlist) hend haddressed
            hkept.subset (hkept.distinct (hdistinct old (List.mem_of_getElem? hold)))
            (by rw [hcount]; exact hkept.bounded (hbounded old)) hsome
          exact ⟨_, hmoved, (length_take_succ hlist).symm, rfl⟩)
      rw [Nat.zero_add, List.length_range',
        Nat.add_sub_cancel' (hoffsets source first hfirst last hlast)] at hsame
      refine ⟨_, ?_, last, hlast, rfl⟩
      simp only [checkSourceEdges, bind_ok, element_eq_ok]
      exact ⟨first, hfirst, last, hlast, final, hfinal, congrArg Except.ok hsame⟩)
  have hend := hglobals.lastEdge
  rw [List.getLast?_eq_getElem?, hglobals.edgeOffsets, Nat.add_sub_cancel] at hend
  rw [Nat.zero_add] at hlast
  rw [hlast, Option.map_some, Option.some.injEq] at hend
  rw [hfinal, hreached, hend, hlisted.gateways, ← hlisted.count, List.take_length]

end

end Accepted

/-! ## The new index -/

theorem validateBuildConfig_reselected {source : BuildConfig}
    (hsource : validateBuildConfig source = .ok ())
    (hconfig : validateBuildConfig config = .ok ()) :
    validateBuildConfig (reselectedConfig source config) = .ok () := by
  simp only [validateBuildConfig, bind_ok] at hsource hconfig ⊢
  obtain ⟨_, hcount, _, himbalance, _, hquality, degree, hdegree, _, hpartition, _, -, _,
    hdirections, _, hsizes, _, -, _, hhierarchy, _, hbranching, hadaptive⟩ := hsource
  obtain ⟨_, -, _, -, _, -, _, -, _, -, _, hgateways, -⟩ := hconfig
  exact ⟨(), hcount, (), himbalance, (), hquality, degree, hdegree, (), hpartition, (), hgateways,
    (), hdirections, (), hsizes, (), rfl, (), hhierarchy, (), hbranching, hadaptive⟩

/-- The edges of the new index keep their pairs and some of their Gateways, those of the profile
first, and the index is accepted. -/
structure Reselected (config : BuildConfig) (profile : GatewayProfile) (source result : Index) :
    Prop where
  count : result.communityEdges.length = source.communityEdges.length
  edges : ∀ (edge : Nat) (old : Edge), source.communityEdges[edge]? = some old →
    ∃ new, result.communityEdges[edge]? = some new ∧
      new.sourceCommunity = old.sourceCommunity ∧ new.targetCommunity = old.targetCommunity ∧
      0 < new.gatewayCount.toNat ∧ new.gatewayCount.toNat ≤ config.gatewayCount.toNat ∧
      edgeGateways result new ⊆ edgeGateways source old ∧
      profileTargets profile old <+: gatewayTargets (edgeGateways result new)
  tiles : TilesFrom 0 result.edgeGatewayRanges result.gateways.length
  accepted : validateLoadedIndex result = .ok ()

theorem edges_tile (accepted : Accepted index) :
    TilesFrom 0 index.edgeGatewayRanges index.gateways.length := by
  have htiles := accepted.edges_ok.tiles
  have hranges : index.edgeGatewayRanges.length = index.communityEdges.length :=
    length_numberedRanges
  rwa [← hranges, List.take_length] at htiles

theorem Reselected.distinct {source result : Index}
    (hreselected : Reselected config profile source result) :
    ∀ edge ∈ source.communityEdges, (profileTargets profile edge).Nodup := by
  intro old hold
  obtain ⟨edge, hedge⟩ := List.mem_iff_getElem?.mp hold
  obtain ⟨new, hnew, -, -, -, -, -, hprofiled⟩ := hreselected.edges edge old hedge
  obtain ⟨accepted⟩ := accepted_of_valid hreselected.accepted
  have hplace := (List.getElem_of_getElem? hnew).1
  obtain ⟨_, record, hrecord, -, hok⟩ := accepted.edges_ok.edges edge hplace
  obtain rfl := Option.some.inj (hnew.symm.trans hrecord)
  exact hok.distinct.sublist hprofiled.sublist

theorem Relisted.reselected {edges : SuperEdges} {lists : List (List Gateway)}
    (hvalid : validateLoadedIndex index = .ok ()) (hconfig : validateBuildConfig config = .ok ())
    (hlisted : Relisted config profile index index.communityEdges.length lists edges)
    (hbounded : ∀ edge, (profileTargets profile edge).length ≤ config.gatewayCount.toNat)
    (hdistinct : ∀ edge ∈ index.communityEdges, (profileTargets profile edge).Nodup) :
    Reselected config profile index
      (index.rerouted (reselectedConfig index.config config) edges.communityEdges
        edges.gateways) := by
  obtain ⟨accepted⟩ := accepted_of_valid hvalid
  have haccepted := validateLoadedIndex_rerouted
    (⟨rfl, rfl, rfl, rfl, rfl, rfl, fun _ => rfl⟩ :
      SameLayout index.config (reselectedConfig index.config config))
    (validateBuildConfig_reselected accepted.config hconfig) hlisted.length
    (hlisted.checkEdges accepted hdistinct hbounded rfl) hvalid
  obtain ⟨again⟩ := accepted_of_valid haccepted
  refine ⟨hlisted.length, fun edge old hold => ?_, edges_tile again, haccepted⟩
  have hplace := (List.getElem_of_getElem? hold).1
  obtain ⟨record, list, hrecord, hlist, hnew, hkept, hsome⟩ := hlisted.kept edge hplace
  obtain rfl := Option.some.inj (hold.symm.trans hrecord)
  have haddressed := (hlisted.length_le accepted hdistinct).trans_lt (gateways_lt accepted)
  have hcount := hkept.bounded (hbounded old)
  have hsmall : list.length < 2 ^ 32 := hcount.trans_lt config.gatewayCount.toNat_lt
  have hfits := length_flatten_take lists edge
  rw [← hlisted.gateways] at hfits
  have hfirst : (UInt64.ofNat (lists.take edge).flatten.length).toNat =
      (lists.take edge).flatten.length :=
    UInt64.toNat_ofNat_of_lt' (show _ < 2 ^ 64 by omega)
  have hwidth : (UInt32.ofNat list.length).toNat = list.length :=
    UInt32.toNat_ofNat_of_lt' (show list.length < 2 ^ 32 by omega)
  have hread : edgeGateways (index.rerouted (reselectedConfig index.config config)
      edges.communityEdges edges.gateways)
      (movedEdge old (lists.take edge).flatten.length list.length) = list := by
    change subspan edges.gateways (UInt64.ofNat _).toNat (UInt32.ofNat _).toNat = list
    rw [hfirst, hwidth, hlisted.gateways]
    exact subspan_flatten_take hlist
  refine ⟨_, hnew, rfl, rfl, ?_, ?_, ?_, ?_⟩
  · refine Nat.pos_of_ne_zero fun hnone => hsome (UInt32.toNat_inj.mp ?_)
    exact hnone
  · exact hwidth.trans_le hcount
  · rw [hread]
    exact hkept.subset
  · rw [hread]
    exact hkept.profiled

/-- A reselection that returns has what it should exactly when the profile names no target of an
edge twice. -/
theorem reselectGateways_reselected_iff {config : BuildConfig} {hardware : UInt32}
    {files : String → Option (List Char)} {source result : Index}
    (hvalid : validateLoadedIndex source = .ok ())
    (hreselect : reselectGateways config hardware files source = .ok result) :
    ∃ profile, loadGatewaySelection config files = .ok profile ∧
      (Reselected config profile source result ↔
        ∀ edge ∈ source.communityEdges, (profileTargets profile edge).Nodup) := by
  simp only [reselectGateways, bind_ok, reject_ok, Except.ok.injEq] at hreselect
  obtain ⟨_, hconfig, _, -, profile, hprofile, edges, hscan, rfl⟩ := hreselect
  obtain ⟨lists, hlisted⟩ := relisted_of_scan hscan
  refine ⟨profile, hprofile, Reselected.distinct, ?_⟩
  exact hlisted.reselected hvalid hconfig (profileTargets_bounded hprofile)

/-- A Community of one node with two Gateways to a Community of two. -/
def threeNodes : Index where
  config :=
    { communityCount := 2, cellTargetSize := 2, blockTargetSize := 2, partitionThreads := 1
      cellPartition := .globalGraphLocal }
  pointCount := 3
  dimension := 1
  pqCodeWidth := 1
  nodeToCommunity := [0, 1, 1]
  nodeToCell := [0, 1, 1]
  nodeToPacketRecord := [0, 1, 2]
  communities :=
    [⟨0, 1, 5, 0, 0, 2, 0, 0, .zero, false, 0, 1, 0, 1⟩,
      ⟨1, 2, 10, 0, 2, 0, 1, 1, .zero, true, 1, 1, 1, 1⟩]
  communityPoles := [.zero, .one]
  communityEdgeOffsets := [0, 1, 1]
  communityEdges := [⟨0, 1, 2, 0, 2⟩]
  gateways := [⟨0, 1, 1⟩, ⟨0, 2, 2⟩]
  directionAxes := [.zero, .one]
  sectors :=
    [{ communityId := 0, sectorId := kPoleSectorId, nodeCount := 1, axisIndex := kInvalidAxisIndex
       cellBegin := 0, cellCount := 1 },
      { communityId := 1, sectorId := 3, nodeCount := 2, axisIndex := 1
        cellBegin := 1, cellCount := 1 }]
  cells :=
    [{ cellId := 0, communityId := 0, sectorId := kPoleSectorId, radialCellId := 0, nodeCount := 1
       capacityClass := 2, blockBegin := 0, blockCount := 1 },
      { cellId := 1, communityId := 1, sectorId := 3, radialCellId := 0, nodeCount := 2
        capacityClass := 2, blockBegin := 1, blockCount := 1 }]
  blocks :=
    [{ blockId := 0, cellId := 0, nodeCount := 1, packetRecordBegin := 0 },
      { blockId := 1, cellId := 1, nodeCount := 2, packetRecordBegin := 1 }]
  cellHierarchyNodes :=
    [{ nodeId := 0, childBegin := 0, childCount := 1, descendantNodeCount := 1
       childrenAreCells := true },
      { nodeId := 1, childBegin := 1, childCount := 1, descendantNodeCount := 2
        childrenAreCells := true }]
  cellHierarchyRoots := [0, 1]
  cellHierarchyChildren := [0, 1]
  cellHierarchyCentroids := [.zero, .one]
  packetPayload := [0, 0, 0, 0, 7, 1, 0, 0, 0, 9, 2, 0, 0, 0, 8]

theorem threeNodes_valid : validateLoadedIndex threeNodes = .ok () := by decide +kernel

/-- Settings that ask for another profile. -/
def profiledConfig : BuildConfig :=
  { threeNodes.config with
    gatewaySelectionPath := "gateways.csv", gatewaySelectionSourcePath := "source.sidecar" }

def secondFirst : List Char :=
  "source_community,target_community,gateway_node,rank,utility,rcni\n0,1,2,0,0,0\n".toList

theorem reselectGateways_reselected_secondFirst :
    ∃ result, reselectGateways profiledConfig 4 (fun _ => some secondFirst) threeNodes =
      .ok result ∧ Reselected profiledConfig [((0, 1), [2])] threeNodes result := by
  obtain ⟨result, hresult, -⟩ : ∃ result, reselectGateways profiledConfig 4
      (fun _ => some secondFirst) threeNodes = .ok result ∧
        result.gateways = [⟨0, 2, 2⟩, ⟨0, 1, 1⟩] := exists_ok (by decide +kernel)
  obtain ⟨profile, hprofile, hiff⟩ := reselectGateways_reselected_iff threeNodes_valid hresult
  have hloaded : loadGatewaySelection profiledConfig (fun _ => some secondFirst) =
      .ok [((0, 1), [2])] := by decide +kernel
  obtain rfl := Except.ok.inj (hloaded.symm.trans hprofile)
  exact ⟨result, hresult, hiff.mpr (by decide)⟩

def firstAgain : List Char :=
  ("source_community,target_community,gateway_node,rank,utility,rcni\n0,1,1,0,0,0\n0,1,2,1,0,0\n" ++
    "0,1,1,2,0,0\n").toList

/-- A target that the profile names twice is selected twice, and the index is rejected. -/
theorem reselectGateways_firstAgain : ¬ ∀ (config : BuildConfig) (hardware : UInt32)
    (files : String → Option (List Char)) (source result : Index),
    validateLoadedIndex source = .ok () →
    reselectGateways config hardware files source = .ok result →
    validateLoadedIndex result = .ok () := by
  intro hclaim
  obtain ⟨result, hresult, hrejected⟩ : ∃ result, reselectGateways profiledConfig 4
      (fun _ => some firstAgain) threeNodes = .ok result ∧ validateLoadedIndex result =
        .error (.runtimeError "Community-Polar Gateway targets are not unique") :=
    exists_ok (by decide +kernel)
  rw [hclaim _ _ _ _ _ threeNodes_valid hresult] at hrejected
  cases hrejected

end SkipCell.Build

import SkipCell.Build.Gateways
import SkipCell.Foundation.KeyRuns

/-! # The Gateways of a pair depend on its best targets

Gateways are chosen from the front of the sorted candidates, and the candidates are the ranking
of the targets. So a shortlist of the best targets is enough.
-/

namespace SkipCell.Build

open Foundation Sidecar

theorem importanceByNode_finite {records : List NodeRecord} {pointCount : Nat}
    {values : List Double} (hvalues : importanceByNode records pointCount = .ok values) :
    ∀ value ∈ values, value.isFinite = true := by
  simp only [importanceByNode, bind_ok, reject_ok, Except.ok.injEq] at hvalues
  obtain ⟨_, _, last, hscan, _, _, rfl⟩ := hvalues
  refine @scan_invariant _ _ _ _ (fun _ values => ∀ value ∈ values, value.isFinite = true) _ _ _ _
    hscan (fun value hvalue => ?_) fun index record before next _ hbefore hstep => ?_
  · rw [List.eq_of_mem_replicate hvalue]
    decide
  · simp only [bind_ok, reject_ok, not_or, Except.ok.injEq] at hstep
    obtain ⟨_, ⟨_, _, hfinite, _⟩, rfl⟩ := hstep
    intro value hvalue
    rcases List.mem_or_eq_of_mem_set hvalue with hold | rfl
    · exact hbefore value hold
    · exact Bool.eq_true_of_not_eq_false hfinite

/-- What `importance_by_node` accepts. -/
def Importance.ofRecords (records : List NodeRecord) (pointCount : Nat) :
    Except Error Importance :=
  match hvalues : importanceByNode records pointCount with
  | .ok values => .ok ⟨values, importanceByNode_finite hvalues⟩
  | .error error => .error error

section Order

variable (importance : Importance)

theorem Importance.isFinite_at (node : Nat) : (importance.at node).isFinite = true := by
  rw [Importance.at, List.getD_eq_getElem?_getD]
  cases hvalue : importance.values[node]? with
  | none => decide
  | some value => exact importance.finite value (List.mem_of_getElem? hvalue)

theorem sameDouble_iff {left right : Double} (hleft : left.isFinite = true)
    (hright : right.isFinite = true) : SameDouble left right ↔ left.key = right.key := by
  rw [SameDouble, Double.le_iff_key hleft hright, Double.le_iff_key hright hleft]
  exact ⟨fun hboth => Int.le_antisymm hboth.1 hboth.2, fun hsame => ⟨hsame.le, hsame.ge⟩⟩

theorem betterTarget_iff {left right : Nat} : BetterTarget importance left right ↔
    (importance.at right).key < (importance.at left).key ∨
      (importance.at left).key = (importance.at right).key ∧ left < right := by
  have hleft := importance.isFinite_at left
  have hright := importance.isFinite_at right
  rw [BetterTarget, Double.lt_iff_key hright hleft]
  split
  · next hsame =>
      rw [sameDouble_iff hleft hright] at hsame
      omega
  · next hne =>
      rw [sameDouble_iff hleft hright] at hne
      omega

instance : IsStrictTotalOrder Nat (BetterTarget importance) where
  irrefl target := by
    rw [betterTarget_iff]
    omega
  trans first second third hfirst hsecond := by
    rw [betterTarget_iff] at hfirst hsecond ⊢
    omega
  trichotomous first second hfirst hsecond := by
    rw [betterTarget_iff] at hfirst hsecond
    omega

end Order

def CrossArc.ends (arc : CrossArc) : Nat × Nat := (arc.sourceNode, arc.targetNode)

theorem foldl_min_le (values : List Nat) (first : Nat) :
    values.foldl min first ≤ first ∧ ∀ value ∈ values, values.foldl min first ≤ value := by
  induction values generalizing first with
  | nil => exact ⟨Nat.le_refl _, by simp⟩
  | cons second values ih =>
    obtain ⟨hfirst, hvalues⟩ := ih (min first second)
    rw [List.foldl_cons]
    refine ⟨hfirst.trans (Nat.min_le_left _ _), List.forall_mem_cons.mpr ⟨?_, hvalues⟩⟩
    exact hfirst.trans (Nat.min_le_right _ _)

theorem foldl_min_mem (values : List Nat) (first : Nat) :
    values.foldl min first = first ∨ values.foldl min first ∈ values := by
  induction values generalizing first with
  | nil => exact .inl rfl
  | cons second values ih =>
    rw [List.foldl_cons]
    rcases ih (min first second) with hsame | hmem
    · rw [hsame]
      rcases Nat.le_total first second with hle | hle
      · exact .inl (Nat.min_eq_left hle)
      · rw [Nat.min_eq_right hle]
        exact .inr List.mem_cons_self
    · exact .inr (List.mem_cons_of_mem _ hmem)

def runEntry (run : List CrossArc) : Option (Nat × Nat) :=
  match run with
  | [] => none
  | first :: rest =>
    some ((rest.map CrossArc.sourceNode).foldl min first.sourceNode, first.targetNode)

variable {runs : List (List CrossArc)}

theorem mem_runEntries {entry : Nat × Nat} :
    entry ∈ runs.filterMap runEntry ↔ ∃ first rest, first :: rest ∈ runs ∧
      entry = ((rest.map CrossArc.sourceNode).foldl min first.sourceNode, first.targetNode) := by
  rw [List.mem_filterMap]
  constructor
  · rintro ⟨run, hrun, hentry⟩
    cases run with
    | nil => cases hentry
    | cons first rest => exact ⟨first, rest, hrun, (Option.some.inj hentry).symm⟩
  · rintro ⟨first, rest, hrun, rfl⟩
    exact ⟨first :: rest, hrun, rfl⟩

theorem entries_sorted (hruns : KeyRuns CrossArc.targetNode runs) :
    (runs.filterMap runEntry).Pairwise fun left right => left.2 < right.2 := by
  refine hruns.later.filterMap runEntry fun left right hless entry hentry other hother => ?_
  cases left with
  | nil => cases hentry
  | cons first rest =>
    cases right with
    | nil => cases hother
    | cons second behind =>
      obtain rfl := Option.some.inj hentry
      obtain rfl := Option.some.inj hother
      exact hless first List.mem_cons_self second List.mem_cons_self

theorem ranks_runEntries (hruns : KeyRuns CrossArc.targetNode runs) :
    Ranks (· < ·) (runs.flatten.map CrossArc.ends) (runs.filterMap runEntry) := by
  have hmember : ∀ first rest, first :: rest ∈ runs → ∃ arc ∈ first :: rest,
      arc.sourceNode = (rest.map CrossArc.sourceNode).foldl min first.sourceNode := by
    intro first rest hrun
    rcases foldl_min_mem (rest.map CrossArc.sourceNode) first.sourceNode with hsame | hmem
    · exact ⟨first, List.mem_cons_self, hsame.symm⟩
    · obtain ⟨arc, harc, hsource⟩ := List.mem_map.mp hmem
      exact ⟨arc, List.mem_cons_of_mem _ harc, hsource⟩
  refine .of_targets (entries_sorted hruns) (fun entry hentry => ?_) fun entry hentry => ?_
  · obtain ⟨first, rest, hrun, rfl⟩ := mem_runEntries.mp hentry
    exact ⟨first.sourceNode, List.mem_map.mpr
      ⟨first, List.mem_flatten.mpr ⟨_, hrun, List.mem_cons_self⟩, rfl⟩⟩
  · obtain ⟨arc, harc, rfl⟩ := List.mem_map.mp hentry
    obtain ⟨run, hrun, hmem⟩ := List.mem_flatten.mp harc
    cases run with
    | nil => exact absurd hmem List.not_mem_nil
    | cons first rest =>
      have htargets := hruns.same _ hrun
      obtain ⟨least, hleast, hsource⟩ := hmember first rest hrun
      refine ⟨least.sourceNode, ?_, ?_, fun source hseen => ?_⟩
      · refine mem_runEntries.mpr ⟨first, rest, hrun, Prod.ext hsource ?_⟩
        exact htargets arc hmem first List.mem_cons_self
      · refine List.mem_map.mpr ⟨least, List.mem_flatten.mpr ⟨_, hrun, hleast⟩, Prod.ext rfl ?_⟩
        exact htargets least hleast arc hmem
      · obtain ⟨other, hother, hends⟩ := List.mem_map.mp hseen
        obtain ⟨hotherSource, hotherTarget⟩ := Prod.mk.inj hends
        obtain ⟨otherRun, hotherRun, hotherMem⟩ := List.mem_flatten.mp hother
        obtain rfl := hruns.unique hotherRun hrun hotherMem hmem hotherTarget
        obtain ⟨hle, hall⟩ := foldl_min_le (rest.map CrossArc.sourceNode) first.sourceNode
        rw [hsource, ← hotherSource]
        rcases List.mem_cons.mp hotherMem with rfl | hrest
        · exact hle
        · exact hall _ (List.mem_map_of_mem hrest)

theorem targetEntries_ranks {arcs : List CrossArc}
    (hsorted : arcs.Pairwise fun left right => left.targetNode ≤ right.targetNode) :
    Ranks (· < ·) (arcs.map CrossArc.ends) (targetEntries arcs) := by
  have hranks := ranks_runEntries (keyRuns_splitBy hsorted)
  rw [List.flatten_splitBy] at hranks
  exact hranks

section Candidates

variable (view : GatewayView) (targetCommunity : Nat)

/-- No target of the second entry is better. -/
def EntryBefore (importance : Importance) (left right : Nat × Nat) : Prop :=
  ¬ BetterTarget importance right.2 left.2

instance (importance : Importance) : DecidableRel (EntryBefore importance) :=
  fun _ _ => inferInstanceAs (Decidable (¬ _))

theorem sort_entries (importance : Importance) {arcs : List CrossArc}
    (hsorted : arcs.Pairwise fun left right => left.targetNode ≤ right.targetNode) :
    (targetEntries arcs).insertionSort (EntryBefore importance) =
      rankEntries (BetterTarget importance) (arcs.map CrossArc.ends) := by
  have htotal : Std.Total (EntryBefore importance) := ⟨fun left right => by
    rw [EntryBefore, EntryBefore, betterTarget_iff, betterTarget_iff]
    omega⟩
  have htrans : IsTrans (Nat × Nat) (EntryBefore importance) := ⟨fun first second third => by
    rw [EntryBefore, EntryBefore, EntryBefore, betterTarget_iff, betterTarget_iff, betterTarget_iff]
    omega⟩
  have hentries := targetEntries_ranks hsorted
  have hperm := List.perm_insertionSort (EntryBefore importance) (targetEntries arcs)
  have hpairs := List.pairwise_insertionSort (EntryBefore importance) (targetEntries arcs)
  have hdistinct : ((targetEntries arcs).insertionSort (EntryBefore importance)).Pairwise
      fun left right => left.2 ≠ right.2 := by
    refine (hperm.pairwise_iff fun hne => Ne.symm hne).mpr ?_
    exact hentries.sorted.imp fun hless => Nat.ne_of_lt hless
  refine Ranks.unique ⟨(hpairs.and hdistinct).imp fun {left right} hboth => ?_, fun entry => ?_⟩
    (rankEntries_ranks (BetterTarget importance) _)
  · rcases trichotomous_of (BetterTarget importance) left.2 right.2 with hless | hsame | hmore
    · exact hless
    · exact absurd hsame hboth.2
    · exact absurd hmore hboth.1
  · rw [hperm.mem_iff, hentries.mem]

theorem candidateBefore_iff (left right : Nat × Nat) :
    CandidateBefore (view.candidate targetCommunity left) (view.candidate targetCommunity right) ↔
      BetterTarget view.importance left.2 right.2 := by
  have himportance : ∀ entry, (view.candidate targetCommunity entry).importance =
      view.importance.at entry.2 := fun _ => rfl
  have htarget : ∀ entry, (view.candidate targetCommunity entry).targetNode = entry.2 :=
    fun _ => rfl
  rw [CandidateBefore, BetterTarget, himportance, himportance, htarget, htarget]

theorem sort_candidates {arcs : List CrossArc}
    (hsorted : arcs.Pairwise fun left right => left.targetNode ≤ right.targetNode) :
    ((targetEntries arcs).map (view.candidate targetCommunity)).insertionSort
        (fun left right => ¬ CandidateBefore right left) =
      (rankEntries (BetterTarget view.importance) (arcs.map CrossArc.ends)).map
        (view.candidate targetCommunity) := by
  rw [← sort_entries view.importance hsorted]
  exact (List.map_insertionSort (EntryBefore view.importance)
    (fun left right => ¬ CandidateBefore right left) _ _ fun left _ right _ =>
      (not_congr (candidateBefore_iff view targetCommunity right left)).symm).symm

end Candidates

section Choice

variable {candidates : List GatewayCandidate} {limit pool : Nat} {selected : List Nat}

theorem filterMap_take (hselected : ∀ position ∈ selected, position < limit) :
    (selected.filterMap fun position => (candidates.take limit)[position]?) =
      selected.filterMap fun position => candidates[position]? :=
  List.filterMap_congr fun position hposition =>
    List.getElem?_take_of_lt (hselected position hposition)

theorem bestGateway_take (hpool : pool ≤ limit) (hselected : ∀ position ∈ selected, position < pool) :
    bestGateway (candidates.take limit) pool selected = bestGateway candidates pool selected := by
  have hseparation : separation (candidates.take limit) selected = separation candidates selected := by
    funext candidate
    rw [separation, separation,
      filterMap_take fun position hposition => (hselected position hposition).trans_le hpool]
  rw [bestGateway, bestGateway, hseparation, List.take_take, Nat.min_eq_left hpool]

theorem bestGateway_lt {best : BestGateway}
    (hbest : bestGateway candidates pool selected = some best) : best.position < pool := by
  have hrun : ∀ (entries : List (GatewayCandidate × Nat)) (start : Option BestGateway),
      (∀ entry ∈ entries, entry.2 < pool) → (∀ best ∈ start, best.position < pool) →
      ∀ best ∈ entries.foldl (fun best entry =>
        let separation := separation candidates selected entry.1
        if entry.2 ∉ selected ∧ Improves best entry.1 separation then
          some ⟨entry.2, entry.1, separation⟩
        else best) start, best.position < pool := by
    intro entries
    induction entries with
    | nil => exact fun start _ hstart => hstart
    | cons entry entries ih =>
      intro start hentries hstart
      obtain ⟨hentry, hentries⟩ := List.forall_mem_cons.mp hentries
      refine ih _ hentries fun best hbest => ?_
      dsimp only at hbest
      split at hbest
      · rw [← Option.mem_some.mp hbest]
        exact hentry
      · exact hstart best hbest
  refine hrun _ none (fun entry hentry => ?_) (by simp) best hbest
  have hplace := List.mem_zipIdx_iff_getElem?.mp hentry
  have hless := (List.getElem_of_getElem? hplace).1
  exact hless.trans_le (List.length_take_le _ _)

theorem fillGateways_take (hpool : pool ≤ limit) (missing : Nat)
    (hselected : ∀ position ∈ selected, position < pool) :
    fillGateways (candidates.take limit) pool missing selected =
        fillGateways candidates pool missing selected ∧
      ∀ filled, fillGateways candidates pool missing selected = .ok filled →
        ∀ position ∈ filled, position < pool := by
  induction missing generalizing selected with
  | zero =>
    refine ⟨rfl, fun filled hfilled => ?_⟩
    rwa [← Except.ok.inj hfilled]
  | succ missing ih =>
    rw [fillGateways, fillGateways, bestGateway_take hpool hselected]
    cases hbest : bestGateway candidates pool selected with
    | none => exact ⟨rfl, fun filled hfilled => by cases hfilled⟩
    | some best =>
      refine ih fun position hposition => ?_
      rcases List.mem_append.mp hposition with hold | hnew
      · exact hselected position hold
      · rw [List.mem_singleton.mp hnew]
        exact bestGateway_lt hbest

end Choice

theorem chooseGateways_take {config : BuildConfig}
    (hcount : config.gatewayCount ≤ config.gatewayShortlist) (candidates : List GatewayCandidate) :
    chooseGateways config (candidates.take config.gatewayShortlist.toNat) [] =
      chooseGateways config candidates [] := by
  have hle : config.gatewayCount.toNat ≤ config.gatewayShortlist.toNat := hcount
  have hlength : (candidates.take config.gatewayShortlist.toNat).length =
      min config.gatewayShortlist.toNat candidates.length := List.length_take
  have hselected : min config.gatewayCount.toNat
      (candidates.take config.gatewayShortlist.toNat).length =
        min config.gatewayCount.toNat candidates.length := by omega
  have hpool : min config.gatewayShortlist.toNat
      (candidates.take config.gatewayShortlist.toNat).length =
        min config.gatewayShortlist.toNat candidates.length := by omega
  rw [chooseGateways, chooseGateways, hselected, hpool]
  set count := min config.gatewayCount.toNat candidates.length with hcountEq
  set pool := min config.gatewayShortlist.toNat candidates.length with hpoolEq
  set selected := if ([] : List Nat).isEmpty = true ∧ count ≠ 0 then [0] else [] with hselectedEq
  have hbelow : ∀ position ∈ selected, position < pool := by
    intro position hposition
    rw [hselectedEq] at hposition
    split at hposition
    · next hsome =>
        rw [List.mem_singleton.mp hposition]
        omega
    · exact absurd hposition List.not_mem_nil
  obtain ⟨hsame, hfilled⟩ := @fillGateways_take candidates config.gatewayShortlist.toNat pool selected
    (Nat.min_le_left _ _) (count - selected.length) hbelow
  change (do
    let filled ← fillGateways (candidates.take config.gatewayShortlist.toNat) pool
      (count - selected.length) selected
    Except.ok _) = (do
    let filled ← fillGateways candidates pool (count - selected.length) selected
    Except.ok _)
  rw [hsame]
  cases hrun : fillGateways candidates pool (count - selected.length) selected with
  | error error => rfl
  | ok filled =>
    change Except.ok _ = Except.ok _
    rw [filterMap_take fun position hposition =>
      (hfilled filled hrun position hposition).trans_le (Nat.min_le_left _ _)]

end SkipCell.Build

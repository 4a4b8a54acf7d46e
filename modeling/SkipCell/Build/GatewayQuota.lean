import SkipCell.Build.GatewayChoice
import SkipCell.Foundation.GreedyFill
import SkipCell.Foundation.UnitInterval

/-! # The Gateways of a pair fill its quota

Every separation is a number that is not negative, so a candidate that is left over is found
until the quota is full. What the profile names comes first, and the rest is chosen greedily from
the front of the ranking.
-/

namespace SkipCell.Build

open Foundation Sidecar

theorem minusOne_isCosine : minusOne.IsCosine := ⟨by decide, by decide, by decide⟩

theorem clampDot_isCosine {least dot : Double} (hless : least < clampDot dot) :
    (clampDot dot).IsCosine := by
  obtain ⟨-, hnumber, -⟩ := (FloatFormat.lt_eq_true FloatFormat.double).mp hless
  revert hnumber
  unfold clampDot
  split
  next => exact fun _ => minusOne_isCosine
  next hleast =>
    split
    next => exact fun _ => ⟨by decide, by decide, by decide⟩
    next hmost =>
      intro hnumber
      have hlow : ¬ dot.key < minusOne.key := fun hbelow => hleast
        ((FloatFormat.lt_eq_true FloatFormat.double).mpr ⟨hnumber, by decide, hbelow⟩)
      have hhigh : ¬ Double.one.key < dot.key := fun habove => hmost
        ((FloatFormat.lt_eq_true FloatFormat.double).mpr ⟨by decide, hnumber, habove⟩)
      have hminus : minusOne.key = -Double.one.key := by decide
      have hone : Double.one.key < FloatFormat.double.infinity := by decide
      have hmagnitude : (FloatFormat.double.magnitude dot.bits.toNat : Int) = dot.key ∨
          (FloatFormat.double.magnitude dot.bits.toNat : Int) = -dot.key := by
        unfold Double.key FloatFormat.orderKey
        split
        next => exact .inr (Int.neg_neg _).symm
        next => exact .inl rfl
      exact ⟨decide_eq_true (by omega), by omega, by omega⟩

theorem separation_number (candidates : List GatewayCandidate) (selected : List Nat)
    (candidate : GatewayCandidate) :
    (separation candidates selected candidate).isFinite = true ∧
      0 ≤ (separation candidates selected candidate).key := by
  have hrun : ∀ (chosen : List GatewayCandidate) (start : Double), start.IsCosine →
      (chosen.foldl (fun maximumDot other =>
        let dot := clampDot (directionDot candidate.direction other.direction)
        if maximumDot < dot then dot else maximumDot) start).IsCosine := by
    intro chosen
    induction chosen with
    | nil => exact fun _ hstart => hstart
    | cons other chosen ih =>
      intro start hstart
      refine ih _ ?_
      dsimp only
      split
      next hless => exact clampDot_isCosine hless
      next => exact hstart
  unfold separation
  dsimp only
  split
  next => exact ⟨by decide, by decide⟩
  next => exact (hrun _ _ minusOne_isCosine).one_sub

/-! ## The candidate that comes next -/

section Next

variable (candidates : List GatewayCandidate) (selected : List Nat)

/-- Farther from what is selected, or as far and better. -/
def ComesNext (left right : GatewayCandidate) : Prop :=
  separation candidates selected right < separation candidates selected left ∨
    SameDouble (separation candidates selected left) (separation candidates selected right) ∧
      CandidateBefore left right

def PlaceBefore (position other : Nat) : Prop :=
  ∃ left right, candidates[position]? = some left ∧ candidates[other]? = some right ∧
    ComesNext candidates selected left right

variable {candidates selected}

section

variable {left right : GatewayCandidate} (hleft : left.importance.isFinite = true)
  (hright : right.importance.isFinite = true)
include hleft hright

theorem candidateBefore_keys :
    CandidateBefore left right ↔ right.importance.key < left.importance.key ∨
      left.importance.key = right.importance.key ∧ left.targetNode < right.targetNode := by
  rw [CandidateBefore, Double.lt_iff_key hright hleft]
  split
  next hsame =>
    rw [sameDouble_iff hleft hright] at hsame
    omega
  next hne =>
    rw [sameDouble_iff hleft hright] at hne
    omega

theorem comesNext_keys :
    ComesNext candidates selected left right ↔
      (separation candidates selected right).key < (separation candidates selected left).key ∨
        (separation candidates selected left).key = (separation candidates selected right).key ∧
          (right.importance.key < left.importance.key ∨
            left.importance.key = right.importance.key ∧ left.targetNode < right.targetNode) := by
  have hnumber := separation_number candidates selected
  rw [ComesNext, Double.lt_iff_key (hnumber right).1 (hnumber left).1,
    sameDouble_iff (hnumber left).1 (hnumber right).1, candidateBefore_keys hleft hright]

end

theorem improves_none (candidate : GatewayCandidate) :
    Improves none candidate (separation candidates selected candidate) := by
  obtain ⟨hfinite, hkey⟩ := separation_number candidates selected candidate
  refine .inl ((Double.lt_iff_key (by decide) hfinite).mpr (Int.lt_of_lt_of_le ?_ hkey))
  decide

theorem improves_some {best : BestGateway} {candidate : GatewayCandidate}
    (hbest : best.separation = separation candidates selected best.candidate)
    (hold : best.candidate.importance.isFinite = true)
    (hnew : candidate.importance.isFinite = true) :
    Improves (some best) candidate (separation candidates selected candidate) ↔
      ComesNext candidates selected candidate best.candidate := by
  have hnumber := separation_number candidates selected
  rw [comesNext_keys hnew hold]
  change best.separation < _ ∨ SameDouble _ best.separation ∧ (_ < _ ∨ SameDouble _ _ ∧ _) ↔ _
  rw [hbest, Double.lt_iff_key (hnumber _).1 (hnumber _).1,
    sameDouble_iff (hnumber _).1 (hnumber _).1, Double.lt_iff_key hold hnew,
    sameDouble_iff hnew hold]

structure PairCandidates (candidates : List GatewayCandidate) : Prop where
  finite : ∀ candidate ∈ candidates, candidate.importance.isFinite = true
  distinct : (candidates.map GatewayCandidate.targetNode).Nodup

/-- The best candidate among those of the first places. -/
def BestSoFar (candidates : List GatewayCandidate) (selected : List Nat) (seen : Nat) :
    Option BestGateway → Prop
  | none => ∀ position < seen, position ∈ selected
  | some best =>
    candidates[best.position]? = some best.candidate ∧
      best.separation = separation candidates selected best.candidate ∧
      NextOf (PlaceBefore candidates selected) (List.range seen) selected best.position

section

variable (hcandidates : PairCandidates candidates)
include hcandidates

theorem PairCandidates.of_getElem? {position : Nat} {candidate : GatewayCandidate}
    (hcandidate : candidates[position]? = some candidate) :
    candidate.importance.isFinite = true :=
  hcandidates.finite candidate (List.mem_of_getElem? hcandidate)

theorem PairCandidates.before_trans {first second third : Nat}
    (hfirst : PlaceBefore candidates selected first second)
    (hsecond : PlaceBefore candidates selected second third) :
    PlaceBefore candidates selected first third := by
  obtain ⟨left, middle, hleft, hmiddle, hless⟩ := hfirst
  obtain ⟨other, right, hother, hright, hmore⟩ := hsecond
  obtain rfl := Option.some.inj (hmiddle.symm.trans hother)
  refine ⟨left, right, hleft, hright, ?_⟩
  rw [comesNext_keys (hcandidates.of_getElem? hleft) (hcandidates.of_getElem? hmiddle)] at hless
  rw [comesNext_keys (hcandidates.of_getElem? hmiddle) (hcandidates.of_getElem? hright)] at hmore
  rw [comesNext_keys (hcandidates.of_getElem? hleft) (hcandidates.of_getElem? hright)]
  omega

theorem PairCandidates.before_of_not {position other : Nat} {left right : GatewayCandidate}
    (hleft : candidates[position]? = some left) (hright : candidates[other]? = some right)
    (hne : position ≠ other) (hnot : ¬ ComesNext candidates selected left right) :
    PlaceBefore candidates selected other position := by
  refine ⟨right, left, hright, hleft, ?_⟩
  have hdiffer : left.targetNode ≠ right.targetNode := by
    intro hsame
    have hleftTarget : (candidates.map GatewayCandidate.targetNode)[position]? =
        some left.targetNode := by rw [List.getElem?_map, hleft, Option.map_some]
    have hrightTarget : (candidates.map GatewayCandidate.targetNode)[other]? =
        some left.targetNode := by rw [List.getElem?_map, hright, Option.map_some, hsame]
    exact hne ((List.getElem?_inj (List.getElem_of_getElem? hleftTarget).1
      hcandidates.distinct).mp (hleftTarget.trans hrightTarget.symm))
  have hleftFinite := hcandidates.of_getElem? hleft
  have hrightFinite := hcandidates.of_getElem? hright
  rw [comesNext_keys hleftFinite hrightFinite] at hnot
  rw [comesNext_keys hrightFinite hleftFinite]
  omega

theorem BestSoFar.step {seen : Nat} {best : Option BestGateway}
    (hbest : BestSoFar candidates selected seen best) {candidate : GatewayCandidate}
    (hcandidate : candidates[seen]? = some candidate) :
    BestSoFar candidates selected (seen + 1)
      (if seen ∉ selected ∧ Improves best candidate (separation candidates selected candidate) then
        some ⟨seen, candidate, separation candidates selected candidate⟩
      else best) := by
  have hplaces : ∀ other, other ∈ List.range (seen + 1) → other = seen ∨
      other ∈ List.range seen := by
    intro other hother
    rw [List.range_succ, List.mem_append, List.mem_singleton] at hother
    exact hother.symm
  have hgrown : ∀ other ∈ List.range seen, other ∈ List.range (seen + 1) := by
    intro other hother
    rw [List.range_succ]
    exact List.mem_append_left _ hother
  have hlast : seen ∈ List.range (seen + 1) := List.self_mem_range_succ
  cases best with
  | none =>
    have hselected : ∀ other ∈ List.range seen, other ∈ selected := fun other hother =>
      hbest other (List.mem_range.mp hother)
    split
    next hnew =>
      refine ⟨hcandidate, rfl, hlast, hnew.1, fun other hother hfresh hne => ?_⟩
      rcases hplaces other hother with hsame | hold
      · exact absurd hsame hne
      · exact absurd (hselected other hold) hfresh
    next hnot =>
      have hseen : seen ∈ selected := by
        by_contra hfresh
        exact hnot ⟨hfresh, improves_none candidate⟩
      intro other hother
      rcases hplaces other (List.mem_range.mpr hother) with rfl | hold
      · exact hseen
      · exact hselected other hold
  | some best =>
    obtain ⟨hentry, hseparation, hnext⟩ := hbest
    have hne : seen ≠ best.position :=
      (Nat.ne_of_lt (List.mem_range.mp hnext.mem)).symm
    have himproves := @improves_some candidates selected best candidate hseparation
      (hcandidates.of_getElem? hentry) (hcandidates.of_getElem? hcandidate)
    split
    next hnew =>
      have hahead : PlaceBefore candidates selected seen best.position :=
        ⟨candidate, best.candidate, hcandidate, hentry, himproves.mp hnew.2⟩
      refine ⟨hcandidate, rfl, hlast, hnew.1, fun other hother hfresh hapart => ?_⟩
      rcases hplaces other hother with hsame | hold
      · exact absurd hsame hapart
      · by_cases hbestPlace : other = best.position
        · rwa [hbestPlace]
        · exact hcandidates.before_trans hahead (hnext.first other hold hfresh hbestPlace)
    next hnot =>
      refine ⟨hentry, hseparation, hgrown _ hnext.mem, hnext.fresh, ?_⟩
      intro other hother hfresh hapart
      rcases hplaces other hother with rfl | hold
      · refine hcandidates.before_of_not hcandidate hentry hne fun hcomes => ?_
        exact hnot ⟨hfresh, himproves.mpr hcomes⟩
      · exact hnext.first other hold hfresh hapart

theorem bestGateway_next {pool : Nat} (hpool : pool ≤ candidates.length)
    (hroom : selected.length < pool) :
    ∃ best, bestGateway candidates pool selected = some best ∧
      NextOf (PlaceBefore candidates selected) (List.range pool) selected best.position := by
  have hrun : ∀ (rest : List GatewayCandidate) (seen : Nat) (best : Option BestGateway),
      (∀ index candidate, rest[index]? = some candidate →
        candidates[seen + index]? = some candidate) →
      BestSoFar candidates selected seen best →
      BestSoFar candidates selected (seen + rest.length)
        ((rest.zipIdx seen).foldl (fun best entry =>
          let separation := separation candidates selected entry.1
          if entry.2 ∉ selected ∧ Improves best entry.1 separation then
            some ⟨entry.2, entry.1, separation⟩
          else best) best) := by
    intro rest
    induction rest with
    | nil => exact fun _ _ _ hbest => hbest
    | cons candidate rest ih =>
      intro seen best hrest hbest
      rw [List.zipIdx_cons, List.foldl_cons, List.length_cons, Nat.add_comm rest.length 1,
        ← Nat.add_assoc]
      refine ih (seen + 1) _ (fun index other hother => ?_) ?_
      · rw [Nat.add_assoc, Nat.add_comm 1 index]
        exact hrest (index + 1) other hother
      · exact hbest.step hcandidates (hrest 0 candidate rfl)
  have hfront : ∀ index candidate, (candidates.take pool)[index]? = some candidate →
      candidates[0 + index]? = some candidate := by
    intro index candidate hcandidate
    have hindex := (List.getElem_of_getElem? hcandidate).1
    rw [List.length_take] at hindex
    rwa [Nat.zero_add, ← List.getElem?_take_of_lt (show index < pool by omega)]
  have hlast := hrun (candidates.take pool) 0 none hfront
    fun _ hnone => absurd hnone (Nat.not_lt_zero _)
  rw [Nat.zero_add, List.length_take, Nat.min_eq_left hpool] at hlast
  change BestSoFar candidates selected pool (bestGateway candidates pool selected) at hlast
  cases hbest : bestGateway candidates pool selected with
  | none =>
    rw [hbest] at hlast
    obtain ⟨position, hposition, hfresh⟩ :=
      exists_fresh List.nodup_range (hroom.trans_eq List.length_range.symm)
    exact absurd (hlast position (List.mem_range.mp hposition)) hfresh
  | some best =>
    rw [hbest] at hlast
    exact ⟨best, rfl, hlast.2.2⟩

theorem fillGateways_fills {pool : Nat} (hpool : pool ≤ candidates.length) {start : List Nat}
    (missing : Nat) (hroom : missing ≠ 0 → selected.length + missing ≤ pool)
    (hselected : GreedyFill (PlaceBefore candidates) (List.range pool) start selected) :
    ∃ filled, fillGateways candidates pool missing selected = .ok filled ∧
      filled.length = selected.length + missing ∧
      GreedyFill (PlaceBefore candidates) (List.range pool) start filled := by
  induction missing generalizing selected with
  | zero => exact ⟨selected, rfl, rfl, hselected⟩
  | succ missing ih =>
    have hplaces := hroom (Nat.succ_ne_zero missing)
    obtain ⟨best, hbest, hnext⟩ :=
      @bestGateway_next candidates selected hcandidates pool hpool (by omega)
    have hlength : (selected ++ [best.position]).length = selected.length + 1 := by simp
    obtain ⟨filled, hfilled, hcount, hfill⟩ := ih (by omega) (hselected.push hnext)
    refine ⟨filled, ?_, by omega, hfill⟩
    rw [fillGateways, hbest]
    exact hfilled

end

end Next

section Profile

variable {candidates : List GatewayCandidate}

def candidateTargets (candidates : List GatewayCandidate) : List Nat :=
  candidates.map GatewayCandidate.targetNode

theorem findIdx?_target {target : Nat} (htarget : target ∈ candidateTargets candidates) :
    (candidates.findIdx? fun candidate => candidate.targetNode = target) =
      some ((candidateTargets candidates).idxOf target) := by
  have hplace := List.idxOf_lt_length_iff.mpr htarget
  rw [candidateTargets, List.length_map] at hplace
  refine List.findIdx?_eq_some_iff_findIdx_eq.mpr ⟨hplace, ?_⟩
  rw [candidateTargets, List.idxOf, List.findIdx_map]
  exact congrArg (List.findIdx · candidates) (funext fun candidate => (beq_eq_decide _ _).symm)

theorem selectProfiled_eq {profiledTargets : List Nat}
    (hprofile : ∀ target ∈ profiledTargets, target ∈ candidateTargets candidates) :
    selectProfiled candidates profiledTargets =
      if profiledTargets.Nodup then .ok (profiledTargets.map (candidateTargets candidates).idxOf)
      else .error (Error.invalidArgument "Gateway selection CSV repeats a target node") := by
  unfold selectProfiled
  generalize hselect : (fun (_ : Nat) (target : Nat) (selected : List Nat) => _) = select
  replace hselect : ∀ position target selected, target ∈ candidateTargets candidates →
      select position target selected = (do
        reject ((candidateTargets candidates).idxOf target ∈ selected)
          (Error.invalidArgument "Gateway selection CSV repeats a target node")
        .ok (selected ++ [(candidateTargets candidates).idxOf target])) := by
    intro position target selected htarget
    rw [← hselect]
    dsimp only
    rw [findIdx?_target htarget]
  have hrun : ∀ (rest done : List Nat) (position : Nat), done.Nodup →
      (∀ target ∈ rest, target ∈ candidateTargets candidates) →
      scan select position rest (done.map (candidateTargets candidates).idxOf) =
        if (done ++ rest).Nodup then .ok ((done ++ rest).map (candidateTargets candidates).idxOf)
        else .error (Error.invalidArgument "Gateway selection CSV repeats a target node") := by
    intro rest
    induction rest with
    | nil =>
      intro done position hdone _
      rw [List.append_nil, if_pos hdone]
      rfl
    | cons target rest ih =>
      intro done position hdone htargets
      obtain ⟨htarget, hrest⟩ := List.forall_mem_cons.mp htargets
      have hseen : (candidateTargets candidates).idxOf target ∈ done.map (candidateTargets candidates).idxOf ↔
          target ∈ done := by
        constructor
        · intro hmem
          obtain ⟨other, hother, hsame⟩ := List.mem_map.mp hmem
          rwa [(List.idxOf_inj htarget).mp hsame.symm]
        · exact fun hmem => List.mem_map_of_mem hmem
      rw [scan, hselect _ _ _ htarget]
      by_cases hrepeated : target ∈ done
      · rw [if_neg fun hnodup => (List.nodup_append.mp hnodup).2.2 target hrepeated target
          List.mem_cons_self rfl]
        simp only [reject, if_pos (hseen.mpr hrepeated)]
        rfl
      · have hgrown : (done ++ [target]).Nodup := by
          refine List.nodup_append.mpr ⟨hdone, by simp, fun old hold new hnew hsame => ?_⟩
          rw [List.mem_singleton.mp hnew] at hsame
          exact hrepeated (hsame ▸ hold)
        have hnext := ih (done ++ [target]) (position + 1) hgrown hrest
        rw [List.append_assoc, List.singleton_append, List.map_append, List.map_singleton] at hnext
        rw [← hnext]
        simp only [reject, if_neg (mt hseen.mp hrepeated)]
        rfl
  exact hrun profiledTargets [] 0 List.nodup_nil hprofile

end Profile

theorem front_next {candidates : List GatewayCandidate} {pool : Nat}
    (hsorted : candidates.Pairwise CandidateBefore) (hpool : pool ≤ candidates.length)
    (hpositive : 0 < pool) : NextOf (PlaceBefore candidates []) (List.range pool) [] 0 where
  mem := List.mem_range.mpr hpositive
  fresh := List.not_mem_nil
  first := fun other hother _ hne => by
    have hplace : other < candidates.length := (List.mem_range.mp hother).trans_le hpool
    have hfirst : 0 < candidates.length := hpositive.trans_le hpool
    refine ⟨candidates[0], candidates[other], List.getElem?_eq_getElem hfirst,
      List.getElem?_eq_getElem hplace, .inr ⟨?_, ?_⟩⟩
    · have hzero : ∀ candidate, separation candidates [] candidate = .zero := fun candidate => by
        simp [separation]
      rw [hzero, hzero]
      decide
    · exact List.pairwise_iff_getElem.mp hsorted 0 other hfirst hplace (Nat.pos_of_ne_zero hne)

def gatewaysAt (candidates : List GatewayCandidate) (filled : List Nat) : List Gateway :=
  (filled.filterMap fun position => candidates[position]?).map fun candidate =>
    ⟨.ofNat candidate.sourceNode, .ofNat candidate.targetNode, 0⟩

theorem chooseGateways_fills {config : BuildConfig} {candidates : List GatewayCandidate}
    (hcandidates : PairCandidates candidates) (hsorted : candidates.Pairwise CandidateBefore)
    (hcount : config.gatewayCount ≤ config.gatewayShortlist) {profiledTargets : List Nat}
    (hprofile : ∀ target ∈ profiledTargets, target ∈ candidateTargets candidates)
    (hdistinct : profiledTargets.Nodup)
    (hlimit : profiledTargets.length ≤ config.gatewayCount.toNat) :
    ∃ filled, chooseGateways config candidates profiledTargets = .ok (gatewaysAt candidates filled) ∧
      filled.length = min config.gatewayCount.toNat candidates.length ∧
      GreedyFill (PlaceBefore candidates)
        (List.range (min config.gatewayShortlist.toNat candidates.length))
        (profiledTargets.map (candidateTargets candidates).idxOf) filled := by
  have hle : config.gatewayCount.toNat ≤ config.gatewayShortlist.toNat := hcount
  set start := profiledTargets.map (candidateTargets candidates).idxOf with hstart
  set pool := min config.gatewayShortlist.toNat candidates.length with hpoolEq
  set count := min config.gatewayCount.toNat candidates.length with hcountEq
  have hpool : pool ≤ candidates.length := Nat.min_le_right _ _
  have hinside : profiledTargets.length ≤ candidates.length := by
    have hsubset := (hdistinct.subperm hprofile).length_le
    rwa [candidateTargets, List.length_map] at hsubset
  have hlength : start.length = profiledTargets.length := List.length_map _
  have hnodup : start.Nodup := hdistinct.map_on fun left hleft right _ hsame =>
    (List.idxOf_inj (hprofile left hleft)).mp hsame
  have hrun : ∀ selected : List Nat, selected.length ≤ count →
      GreedyFill (PlaceBefore candidates) (List.range pool) start selected →
      ∃ filled, fillGateways candidates pool (count - selected.length) selected = .ok filled ∧
        filled.length = count ∧
        GreedyFill (PlaceBefore candidates) (List.range pool) start filled := by
    intro selected hselected hfill
    obtain ⟨filled, hfilled, htotal, hgreedy⟩ :=
      fillGateways_fills hcandidates hpool (count - selected.length) (fun _ => by omega) hfill
    exact ⟨filled, hfilled, by omega, hgreedy⟩
  have hselected : ∃ filled, fillGateways candidates pool
      (count - (if start.isEmpty = true ∧ count ≠ 0 then [0] else start).length)
      (if start.isEmpty = true ∧ count ≠ 0 then [0] else start) = .ok filled ∧
        filled.length = count ∧
        GreedyFill (PlaceBefore candidates) (List.range pool) start filled := by
    split
    next hempty =>
      have hnone : start = [] := List.isEmpty_iff.mp hempty.1
      rw [hnone] at hrun ⊢
      refine hrun [0] (Nat.pos_of_ne_zero hempty.2) ?_
      exact GreedyFill.push (.refl List.nodup_nil) (front_next hsorted hpool (by omega))
    next => exact hrun start (by omega) (.refl hnodup)
  obtain ⟨filled, hfilled, htotal, hgreedy⟩ := hselected
  refine ⟨filled, ?_, htotal, hgreedy⟩
  rw [chooseGateways, selectProfiled_eq hprofile, if_pos hdistinct]
  exact bind_ok.mpr ⟨start, rfl, bind_ok.mpr ⟨filled, hfilled, rfl⟩⟩

/-! ## The Gateways of a pair -/

def Gateway.ends (gateway : Gateway) : Nat × Nat :=
  (gateway.sourceNode.toNat, gateway.targetNode.toNat)

section Pair

variable (view : GatewayView) (targetCommunity : Nat)

/-- How far a target is from those that were chosen before it. -/
def chosenDistance (chosen : List (Nat × Nat)) (entry : Nat × Nat) : Double :=
  separation (chosen.map (view.candidate targetCommunity)) (List.range chosen.length)
    (view.candidate targetCommunity entry)

/-- Of two targets the farther one is chosen, and of two as far the better one. -/
def NextGateway (chosen : List (Nat × Nat)) (left right : Nat × Nat) : Prop :=
  chosenDistance view targetCommunity chosen right <
      chosenDistance view targetCommunity chosen left ∨
    SameDouble (chosenDistance view targetCommunity chosen left)
        (chosenDistance view targetCommunity chosen right) ∧
      BetterTarget view.importance left.2 right.2

/-- The Gateways that are kept of ranked targets. -/
structure ChosenGateways (ranked : List (Nat × Nat)) (profiledTargets : List Nat)
    (kept : List (Nat × Nat)) : Prop where
  count : kept.length = min view.index.config.gatewayCount.toNat ranked.length
  members : ∀ entry ∈ kept, entry ∈ ranked
  distinct : (kept.map Prod.snd).Nodup
  filled : ∃ profiled, profiled.map Prod.snd = profiledTargets ∧
    GreedyFill (NextGateway view targetCommunity)
      (ranked.take view.index.config.gatewayShortlist.toNat) profiled kept

variable {view targetCommunity}

theorem filterMap_range {β : Type} (values : List β) :
    ((List.range values.length).filterMap fun position => values[position]?) = values := by
  induction values with
  | nil => rfl
  | cons value values ih =>
    rw [List.length_cons, List.range_succ_eq_map, List.filterMap_cons, List.filterMap_map]
    simpa using ih

theorem separation_congr {candidates others : List GatewayCandidate} {selected chosen : List Nat}
    (hsame : (selected.filterMap fun position => candidates[position]?) =
      chosen.filterMap fun position => others[position]?) :
    separation candidates selected = separation others chosen := by
  funext candidate
  rw [separation, separation, hsame]

def entriesAt (ranked : List (Nat × Nat)) (position : Nat) : Nat × Nat := ranked.getD position (0, 0)

variable {ranked : List (Nat × Nat)}

theorem getElem?_entriesAt {position : Nat} (hposition : position < ranked.length) :
    ranked[position]? = some (entriesAt ranked position) := by
  rw [entriesAt, List.getD_eq_getElem?_getD, List.getElem?_eq_getElem hposition]
  rfl

section

variable {ranked : List (Nat × Nat)} {chosen : List Nat}
  (hchosen : ∀ position ∈ chosen, position < ranked.length)
include hchosen

theorem filterMap_candidates :
    (chosen.filterMap fun position => (ranked.map (view.candidate targetCommunity))[position]?) =
      (chosen.map (entriesAt ranked)).map (view.candidate targetCommunity) := by
  have hmap := @List.filterMap_eq_map _ _ (view.candidate targetCommunity ∘ entriesAt ranked)
  rw [List.map_map, ← congrFun hmap chosen]
  refine List.filterMap_congr fun position hposition => ?_
  rw [List.getElem?_map, getElem?_entriesAt (hchosen position hposition)]
  rfl

theorem nextGateway_of_place {position other : Nat}
    (hbefore : PlaceBefore (ranked.map (view.candidate targetCommunity)) chosen position other) :
    NextGateway view targetCommunity (chosen.map (entriesAt ranked)) (entriesAt ranked position)
      (entriesAt ranked other) := by
  obtain ⟨left, right, hleft, hright, hcomes⟩ := hbefore
  have hentry : ∀ {place : Nat} {candidate : GatewayCandidate},
      (ranked.map (view.candidate targetCommunity))[place]? = some candidate →
      candidate = view.candidate targetCommunity (entriesAt ranked place) := by
    intro place candidate hcandidate
    rw [List.getElem?_map, Option.map_eq_some_iff] at hcandidate
    obtain ⟨entry, hentry, rfl⟩ := hcandidate
    rw [getElem?_entriesAt (List.getElem_of_getElem? hentry).1] at hentry
    rw [Option.some.inj hentry]
  obtain rfl := hentry hleft
  obtain rfl := hentry hright
  have hseparation := @separation_congr (ranked.map (view.candidate targetCommunity))
    ((chosen.map (entriesAt ranked)).map (view.candidate targetCommunity)) chosen
    (List.range (chosen.map (entriesAt ranked)).length) <| by
      have hrange := filterMap_range
        ((chosen.map (entriesAt ranked)).map (view.candidate targetCommunity))
      rw [List.length_map] at hrange
      rw [filterMap_candidates hchosen, hrange]
  rw [ComesNext, hseparation, candidateBefore_iff] at hcomes
  exact hcomes

end

section

variable {arcs : List CrossArc} {ranked : List (Nat × Nat)}
  (hranked : Ranks (BetterTarget view.importance) (arcs.map CrossArc.ends) ranked)
include hranked

theorem targets_ranked :
    (ranked.map Prod.snd).Nodup ∧
      ∀ target, target ∈ ranked.map Prod.snd ↔ target ∈ arcs.map CrossArc.targetNode := by
  constructor
  · rw [List.Nodup, List.pairwise_map]
    refine hranked.sorted.imp fun {left right} hless hsame => ?_
    rw [hsame] at hless
    exact irrefl right.2 hless
  · intro target
    constructor
    · intro htarget
      obtain ⟨entry, hentry, rfl⟩ := List.mem_map.mp htarget
      obtain ⟨arc, harc, hends⟩ := List.mem_map.mp ((hranked.mem entry).mp hentry).1
      exact List.mem_map.mpr ⟨arc, harc, congrArg Prod.snd hends⟩
    · intro htarget
      obtain ⟨arc, harc, rfl⟩ := List.mem_map.mp htarget
      obtain ⟨source, hleast⟩ := exists_leastSeen (List.mem_map_of_mem harc : arc.ends ∈ _)
      exact List.mem_map.mpr ⟨_, (hranked.mem _).mpr hleast, rfl⟩

theorem pairCandidates :
    PairCandidates (ranked.map (view.candidate targetCommunity)) ∧
      (ranked.map (view.candidate targetCommunity)).Pairwise CandidateBefore ∧
      candidateTargets (ranked.map (view.candidate targetCommunity)) = ranked.map Prod.snd := by
  have htargets : candidateTargets (ranked.map (view.candidate targetCommunity)) =
      ranked.map Prod.snd := by
    rw [candidateTargets, List.map_map]
    rfl
  refine ⟨⟨fun candidate hcandidate => ?_, ?_⟩, ?_, htargets⟩
  · obtain ⟨entry, -, rfl⟩ := List.mem_map.mp hcandidate
    exact view.importance.isFinite_at entry.2
  · rw [← candidateTargets, htargets]
    exact (targets_ranked hranked).1
  · rw [List.pairwise_map]
    exact hranked.sorted.imp fun {left right} hless =>
      (candidateBefore_iff view targetCommunity left right).mpr hless

end

theorem gatewaysAt_ends {filled : List Nat}
    (hfilled : ∀ position ∈ filled, position < ranked.length)
    (hnodes : ∀ entry ∈ ranked, entry.1 < 2 ^ 32 ∧ entry.2 < 2 ^ 32) :
    (gatewaysAt (ranked.map (view.candidate targetCommunity)) filled).map Gateway.ends =
      filled.map (entriesAt ranked) := by
  rw [gatewaysAt, filterMap_candidates hfilled, List.map_map, List.map_map, List.map_map]
  refine List.map_congr_left fun position hposition => ?_
  have hentry := List.mem_of_getElem? (getElem?_entriesAt (hfilled position hposition))
  obtain ⟨hsource, htarget⟩ := hnodes _ hentry
  exact Prod.ext (UInt32.toNat_ofNat_of_lt' hsource) (UInt32.toNat_ofNat_of_lt' htarget)

/-- The places that were filled are the entries that are kept. -/
theorem chosen_of_filled {profiledTargets : List Nat} {filled : List Nat}
    (htargets : (ranked.map Prod.snd).Nodup)
    (hprofile : ∀ target ∈ profiledTargets, target ∈ ranked.map Prod.snd)
    (hcount : filled.length = min view.index.config.gatewayCount.toNat ranked.length)
    (hfilled : GreedyFill (PlaceBefore (ranked.map (view.candidate targetCommunity)))
      (List.range (min view.index.config.gatewayShortlist.toNat ranked.length))
      (profiledTargets.map (ranked.map Prod.snd).idxOf) filled) :
    (∀ position ∈ filled, position < ranked.length) ∧
      ChosenGateways view targetCommunity ranked profiledTargets
        (filled.map (entriesAt ranked)) := by
  have hpool : ∀ position ∈ List.range (min view.index.config.gatewayShortlist.toNat ranked.length),
      position < ranked.length := fun position hposition =>
    (List.mem_range.mp hposition).trans_le (Nat.min_le_right _ _)
  have hplaces : ∀ position ∈ filled, position < ranked.length := by
    intro position hposition
    rcases hfilled.mem hposition with hstart | hmember
    · obtain ⟨target, htarget, rfl⟩ := List.mem_map.mp hstart
      have hplace := List.idxOf_lt_length_iff.mpr (hprofile target htarget)
      rwa [List.length_map] at hplace
    · exact hpool position hmember
  have htarget : ∀ {position : Nat}, position < ranked.length →
      (ranked.map Prod.snd)[position]? = some (entriesAt ranked position).2 := by
    intro position hposition
    rw [List.getElem?_map, getElem?_entriesAt hposition, Option.map_some]
  have hinjective : ∀ {left right : Nat}, left < ranked.length → right < ranked.length →
      (entriesAt ranked left).2 = (entriesAt ranked right).2 → left = right := by
    intro left right hleft hright hsame
    refine (List.getElem?_inj (by rwa [List.length_map]) htargets).mp ?_
    rw [htarget hleft, htarget hright, hsame]
  have hboth : ∀ position ∈ List.range (min view.index.config.gatewayShortlist.toNat
      ranked.length) ++ filled, position < ranked.length := fun position hposition =>
    (List.mem_append.mp hposition).elim (hpool position) (hplaces position)
  refine ⟨hplaces, ?_, ?_, ?_,
    ⟨(profiledTargets.map (ranked.map Prod.snd).idxOf).map (entriesAt ranked), ?_, ?_⟩⟩
  · rw [List.length_map, hcount]
  · intro entry hentry
    obtain ⟨position, hposition, rfl⟩ := List.mem_map.mp hentry
    exact List.mem_of_getElem? (getElem?_entriesAt (hplaces position hposition))
  · rw [List.map_map]
    exact hfilled.distinct.map_on fun left hleft right hright hsame =>
      hinjective (hplaces left hleft) (hplaces right hright) hsame
  · rw [List.map_map, List.map_map]
    refine (List.map_congr_left fun target hmem => ?_).trans (List.map_id _)
    have hplace := List.idxOf_lt_length_iff.mpr (hprofile target hmem)
    have hfound := List.getElem?_idxOf (hprofile target hmem)
    rw [htarget (by rwa [List.length_map] at hplace)] at hfound
    exact Option.some.inj hfound
  · have hmapped := GreedyFill.map (entriesAt ranked) (fun left hleft right hright hsame =>
      hinjective (hboth left hleft) (hboth right hright) (congrArg Prod.snd hsame))
      (fun chosen hchosen left _ right _ hbefore => nextGateway_of_place
        (fun position hposition => hplaces position (hchosen.subset hposition)) hbefore) hfilled
    have hfront : (List.range (min view.index.config.gatewayShortlist.toNat ranked.length)).map
        (entriesAt ranked) = ranked.take view.index.config.gatewayShortlist.toNat := by
      refine List.ext_getElem? fun position => ?_
      rw [List.getElem?_map]
      rcases Nat.lt_or_ge position (min view.index.config.gatewayShortlist.toNat ranked.length) with
        hinside | houtside
      · rw [List.getElem?_range hinside, Option.map_some, List.getElem?_take_of_lt (by omega),
          getElem?_entriesAt (by omega)]
      · rw [List.getElem?_eq_none (by rwa [List.length_range]),
          List.getElem?_eq_none (by rw [List.length_take]; exact houtside)]
        rfl
    rwa [hfront] at hmapped

theorem length_ranked {arcs : List CrossArc}
    (hranked : Ranks (BetterTarget view.importance) (arcs.map CrossArc.ends) ranked) :
    ranked.length = (arcs.map CrossArc.targetNode).dedup.length := by
  obtain ⟨hnodup, hmem⟩ := targets_ranked hranked
  have hperm : (ranked.map Prod.snd).Perm (arcs.map CrossArc.targetNode).dedup := by
    refine (List.perm_ext_iff_of_nodup hnodup (List.nodup_dedup _)).mpr fun target => ?_
    rw [hmem, List.mem_dedup]
  rw [← hperm.length_eq, List.length_map]

/-- Targets of a profile are kept in its order and the rest is chosen from the ranking, each
target with its least source; a profile that repeats a target is refused. -/
theorem selectGateways_quota (view : GatewayView) (targetCommunity : Nat) {arcs : List CrossArc}
    {profiledTargets : List Nat}
    (hsorted : arcs.Pairwise fun left right => left.targetNode ≤ right.targetNode)
    (hnodes : ∀ arc ∈ arcs, arc.sourceNode < 2 ^ 32 ∧ arc.targetNode < 2 ^ 32)
    (hcount : view.index.config.gatewayCount ≤ view.index.config.gatewayShortlist)
    (hprofile : ∀ target ∈ profiledTargets, target ∈ arcs.map CrossArc.targetNode)
    (hlimit : profiledTargets.length ≤ view.index.config.gatewayCount.toNat) :
    ∃ ranked, Ranks (BetterTarget view.importance) (arcs.map CrossArc.ends) ranked ∧
      ranked.length = (arcs.map CrossArc.targetNode).dedup.length ∧
      (profiledTargets.Nodup → ∃ gateways,
        selectGateways view arcs targetCommunity profiledTargets = .ok gateways ∧
          ChosenGateways view targetCommunity ranked profiledTargets
            (gateways.map Gateway.ends)) ∧
      (¬ profiledTargets.Nodup → selectGateways view arcs targetCommunity profiledTargets =
        .error (.invalidArgument "Gateway selection CSV repeats a target node")) := by
  have hranked := rankEntries_ranks (BetterTarget view.importance) (arcs.map CrossArc.ends)
  set ranked := rankEntries (BetterTarget view.importance) (arcs.map CrossArc.ends) with hrankedEq
  obtain ⟨hcandidates, hordered, htargets⟩ := @pairCandidates view targetCommunity arcs ranked hranked
  obtain ⟨hnodup, hmem⟩ := targets_ranked hranked
  have hnamed : ∀ target ∈ profiledTargets, target ∈ ranked.map Prod.snd := fun target htarget =>
    (hmem target).mpr (hprofile target htarget)
  have hselect : selectGateways view arcs targetCommunity profiledTargets =
      chooseGateways view.index.config (ranked.map (view.candidate targetCommunity))
        profiledTargets := by
    rw [selectGateways, sort_candidates view targetCommunity hsorted]
  refine ⟨ranked, hranked, length_ranked hranked, fun hdistinct => ?_, fun hrepeated => ?_⟩
  · obtain ⟨filled, hfilled, hlength, hgreedy⟩ := chooseGateways_fills hcandidates hordered hcount
      (by rwa [htargets]) hdistinct hlimit
    rw [htargets, List.length_map] at hgreedy
    rw [List.length_map] at hlength
    obtain ⟨hplaces, hchosen⟩ := chosen_of_filled hnodup hnamed hlength hgreedy
    refine ⟨_, hselect.trans hfilled, ?_⟩
    rwa [gatewaysAt_ends hplaces fun entry hentry => ?_]
    obtain ⟨arc, harc, rfl⟩ := List.mem_map.mp ((hranked.mem entry).mp hentry).1
    exact hnodes arc harc
  · rw [hselect, chooseGateways, selectProfiled_eq (by rwa [htargets]), if_neg hrepeated]
    rfl

end Pair

/-- Two nodes of a Community that the other one reaches. -/
def forkView : GatewayView where
  index := { twoNodes with pointCount := 4, nodeToCommunity := [0, 1, 1, 0] }
  vectors := [.zero, .zero, .one, .zero]
  importance := ⟨[.zero, .one, .zero, .one], by decide⟩

def forkArcs : List CrossArc := [⟨0, 1, 0, 1⟩, ⟨0, 1, 0, 2⟩, ⟨0, 1, 3, 2⟩]

theorem selectGateways_quota_fork : ∃ gateways,
    selectGateways forkView forkArcs 1 [2] = .ok gateways ∧ gateways.length = 2 := by
  obtain ⟨ranked, -, hlength, hchosen, -⟩ := @selectGateways_quota forkView 1 forkArcs [2]
    (by decide) (by decide) (by decide) (by decide) (by decide)
  obtain ⟨gateways, hgateways, hkept⟩ := hchosen (by decide)
  refine ⟨gateways, hgateways, ?_⟩
  have hcount := hkept.count
  rw [List.length_map, hlength] at hcount
  exact hcount

/-- The profile names real targets, and one of them twice. -/
theorem selectGateways_refuses_repeated : ¬ ∀ (view : GatewayView) (arcs : List CrossArc)
    (profiledTargets : List Nat), arcs.Pairwise (fun left right => left.targetNode ≤ right.targetNode) →
    view.index.config.gatewayCount ≤ view.index.config.gatewayShortlist →
    (∀ target ∈ profiledTargets, target ∈ arcs.map CrossArc.targetNode) →
    profiledTargets.length ≤ view.index.config.gatewayCount.toNat →
    ∃ gateways, selectGateways view arcs 1 profiledTargets = .ok gateways ∧
      gateways.length = min view.index.config.gatewayCount.toNat
        (arcs.map CrossArc.targetNode).dedup.length := by
  intro hclaim
  obtain ⟨gateways, hgateways, -⟩ :=
    hclaim forkView forkArcs [2, 1, 2] (by decide) (by decide) (by decide) (by decide)
  have herror : selectGateways forkView forkArcs 1 [2, 1, 2] =
      .error (.invalidArgument "Gateway selection CSV repeats a target node") := by rfl
  rw [herror] at hgateways
  cases hgateways

end SkipCell.Build

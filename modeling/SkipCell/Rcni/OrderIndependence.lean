import SkipCell.Foundation.KeyRuns
import SkipCell.Rcni.Aggregator

/-! # Importance does not depend on the order of observation

Sources are observed by several threads, and each call has two steps that others see: the mark of
its source and the insertion into a shard. The credits of a source are sorted before they are
folded, and the contributions before they are added, so the importance depends only on which
events were observed.
-/

namespace SkipCell.Rcni

open Foundation

/-! ## The credits of a source -/

def CreditKeyBefore (left right : CreditEntry) : Prop :=
  left.witnessId < right.witnessId ∨ left.witnessId = right.witnessId ∧
    (left.eventCredit.bits.toNat < right.eventCredit.bits.toNat ∨
      left.eventCredit.bits.toNat = right.eventCredit.bits.toNat ∧
        left.victimId ≤ right.victimId)

instance : DecidableRel CreditKeyBefore := fun _ _ => inferInstanceAs (Decidable (_ ∨ _))

theorem creditBefore_iff {left right : CreditEntry} (hleft : left.eventCredit.InUnit)
    (hright : right.eventCredit.InUnit) : CreditBefore left right ↔ CreditKeyBefore left right := by
  have hinfinity : Single.one.bits.toNat ≤ FloatFormat.single.infinity := by decide
  unfold CreditBefore CreditKeyBefore
  rw [Single.lt_iff_bits (hleft.trans hinfinity) (hright.trans hinfinity),
    Single.lt_iff_bits (hright.trans hinfinity) (hleft.trans hinfinity)]
  omega

theorem insertionSort_creditBefore {credits : List CreditEntry}
    (hunit : ∀ entry ∈ credits, entry.eventCredit.InUnit) :
    credits.insertionSort CreditBefore = credits.insertionSort CreditKeyBefore := by
  have hsorted := List.map_insertionSort CreditBefore CreditKeyBefore id credits
    fun left hleft right hright => creditBefore_iff (hunit left hleft) (hunit right hright)
  rwa [List.map_id, List.map_id] at hsorted

theorem pairwise_creditKeyBefore (credits : List CreditEntry) :
    (credits.insertionSort CreditKeyBefore).Pairwise CreditKeyBefore := by
  have : Std.Total CreditKeyBefore := ⟨fun left right => by unfold CreditKeyBefore; omega⟩
  have : IsTrans CreditEntry CreditKeyBefore :=
    ⟨fun left middle right => by unfold CreditKeyBefore; omega⟩
  exact List.pairwise_insertionSort _ _

theorem insertionSort_congr {credits others : List CreditEntry} (hperm : credits.Perm others) :
    credits.insertionSort CreditKeyBefore = others.insertionSort CreditKeyBefore := by
  refine ((List.perm_insertionSort _ credits).trans
    (hperm.trans (List.perm_insertionSort _ others).symm)).eq_of_pairwise ?_
    (pairwise_creditKeyBefore credits) (pairwise_creditKeyBefore others)
  rintro ⟨witness, victim, credit⟩ ⟨otherWitness, otherVictim, otherCredit⟩ - - hbefore hafter
  simp only [CreditKeyBefore] at hbefore hafter
  have hcredit : credit = otherCredit := by
    have hbits : credit.bits.toNat = otherCredit.bits.toNat := by omega
    exact congrArg Single.mk (UInt32.toNat.inj hbits)
  obtain rfl : witness = otherWitness := by omega
  obtain rfl : victim = otherVictim := by omega
  rw [hcredit]

section Source

variable {Log : Type} {folds : Folds Log} {aggregator : Aggregator} {source : Nat}
variable {events others : List PruneEvent} {contributions : List SourceContribution}

theorem eventCredit_unit {event : PruneEvent} {entry : CreditEntry}
    (hcredit : eventCredit aggregator source event = .ok entry) : entry.eventCredit.InUnit := by
  simp only [eventCredit, bind_ok, reject_ok, exists_const, Except.ok.injEq] at hcredit
  obtain ⟨-, -, -, credit, hcomputed, rfl⟩ := hcredit
  exact eventCredit_inUnit hcomputed

theorem contributionsOf_congr {credits others : List CreditEntry} (hperm : credits.Perm others)
    (hunit : ∀ entry ∈ credits, entry.eventCredit.InUnit) :
    contributionsOf folds source credits = contributionsOf folds source others := by
  unfold contributionsOf
  rw [insertionSort_creditBefore hunit, insertionSort_congr hperm,
    insertionSort_creditBefore fun entry hentry => hunit entry (hperm.mem_iff.mpr hentry)]

theorem sourceContributions_congr (hperm : events.Perm others)
    (hcontributions : aggregator.sourceContributions folds source events = .ok contributions) :
    aggregator.sourceContributions folds source others = .ok contributions := by
  obtain ⟨credits, hcredits, hresult⟩ := bind_ok.mp hcontributions
  obtain rfl := Except.ok.inj hresult
  obtain ⟨otherCredits, hother, hsame⟩ :=
    List.perm_comp_forall₂ hperm.symm (mapM_eq_ok.mp hcredits)
  refine bind_ok.mpr ⟨otherCredits, mapM_eq_ok.mpr hother, ?_⟩
  refine congrArg Except.ok (contributionsOf_congr hsame.symm fun entry hentry => ?_).symm
  obtain ⟨event, -, hcredit⟩ := exists_of_mapM_eq_ok hcredits hentry
  exact eventCredit_unit hcredit

end Source

/-- What a thread does next: begin a call, or finish one of those that are running. -/
inductive Step
  | start (call : Call)
  | finish (position : Nat)

/-- The aggregator with the calls that are past their mark and have not inserted yet. -/
structure Observation where
  aggregator : Aggregator
  running : List Call := []

namespace Observation

variable {Log : Type} (folds : Folds Log)

def step (observation : Observation) : Step → Except Error Observation
  | .start call => do
    let aggregator ← observation.aggregator.beginSource call.source
    .ok ⟨aggregator, observation.running ++ [call]⟩
  | .finish position =>
    match observation.running[position]? with
    | none => .ok observation
    | some call => do
      let aggregator ← observation.aggregator.finishSource folds call.source call.events
      .ok ⟨aggregator, observation.running.eraseIdx position⟩

def run (observation : Observation) : List Step → Except Error Observation
  | [] => .ok observation
  | next :: steps => do
    let observation ← observation.step folds next
    observation.run steps

end Observation

/-- The same sources, in any order, each with the same events in any order. -/
def SameCalls (first second : List Call) : Prop :=
  ∃ middle : List Call, first.Perm middle ∧ List.Forall₂ (fun left right =>
    left.source = right.source ∧ left.events.Perm right.events) middle second

/-! ## What a run leaves -/

section Runs

variable {Log : Type} {folds : Folds Log}

def contributionsOfCall (folds : Folds Log) (aggregator : Aggregator) (call : Call) :
    List SourceContribution :=
  ((aggregator.sourceContributions folds call.source call.events).toOption).getD []

/-- What holds after some calls have begun. -/
structure Observed (folds : Folds Log) (start : Aggregator) (started : List Call)
    (observation : Observation) : Prop where
  same : ∃ marks shards, observation.aggregator =
    { start with observedSources := marks, shards := shards }
  marks : observation.aggregator.observedSources.length = start.sourceCount
  shards : 0 < observation.aggregator.shards.length
  observed : ∀ source < start.sourceCount,
    observation.aggregator.observedSources[source]? =
      some (decide (source ∈ started.map Call.source))
  distinct : (started.map Call.source).Nodup
  inside : ∀ call ∈ started, call.source < start.sourceCount
  inserted : ∃ finished, started.Perm (finished ++ observation.running) ∧
    (∀ call ∈ finished, ∃ contributions,
      start.sourceContributions folds call.source call.events = .ok contributions) ∧
    observation.aggregator.shards.flatten.Perm
      (finished.flatMap (contributionsOfCall folds start))

namespace Observed

variable {start : Aggregator} {started : List Call} {before after : Observation}

theorem completed {observation : Observation} (hobserved : Observed folds start started observation)
    (hdone : observation.running = []) :
    (∀ call ∈ started, ∃ contributions,
      start.sourceContributions folds call.source call.events = .ok contributions) ∧
    observation.aggregator.shards.flatten.Perm (started.flatMap (contributionsOfCall folds start)) := by
  obtain ⟨finished, hperm, hvalid, hflatten⟩ := hobserved.inserted
  rw [hdone, List.append_nil] at hperm
  exact ⟨fun call hcall => hvalid call (hperm.mem_iff.mp hcall),
    hflatten.trans (hperm.symm.flatMap_right _)⟩

end Observed

/-! ## The canonical order -/

theorem SameCalls.contributions {start : Aggregator} {first second : List Call}
    (hsame : SameCalls first second)
    (hvalid : ∀ call ∈ first, ∃ contributions,
      start.sourceContributions folds call.source call.events = .ok contributions) :
    (first.flatMap (contributionsOfCall folds start)).Perm
      (second.flatMap (contributionsOfCall folds start)) := by
  obtain ⟨middle, hperm, hcalls⟩ := hsame
  refine (hperm.flatMap_right _).trans (List.Perm.of_eq ?_)
  have hmiddle : ∀ call ∈ middle, ∃ contributions,
      start.sourceContributions folds call.source call.events = .ok contributions :=
    fun call hcall => hvalid call (hperm.mem_iff.mpr hcall)
  clear hvalid hperm
  induction hcalls with
  | nil => rfl
  | cons hcall _ ih =>
    obtain ⟨hhead, hrest⟩ := List.forall_mem_cons.mp hmiddle
    obtain ⟨contributions, hcontributions⟩ := hhead
    have hother := sourceContributions_congr hcall.2 hcontributions
    rw [hcall.1] at hother
    rw [List.flatMap_cons, List.flatMap_cons, ih hrest, contributionsOfCall, contributionsOfCall,
      hcontributions, hother]

end Runs

end SkipCell.Rcni

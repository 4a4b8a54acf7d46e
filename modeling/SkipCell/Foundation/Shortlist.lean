import Mathlib

/-! # Shortlists of the best targets

Entries with a source and a target are seen one after the other. The targets are ranked, and each
target has the least of its sources. A shortlist keeps only the first targets of the ranking, and
still has the ranking of all that was seen; so have shortlists of parts that are merged.
-/

namespace Foundation

universe u v

variable {Source : Type u} {Target : Type v} [LinearOrder Source]

def LeastSeen (seen : List (Source × Target)) (entry : Source × Target) : Prop :=
  entry ∈ seen ∧ ∀ source, (source, entry.2) ∈ seen → entry.1 ≤ source

/-- Every target that was seen, with its least source, the best first. -/
structure Ranks (better : Target → Target → Prop) (seen ranked : List (Source × Target)) :
    Prop where
  sorted : ranked.Pairwise fun left right => better left.2 right.2
  mem : ∀ entry, entry ∈ ranked ↔ LeastSeen seen entry

section Lists

variable (better : Target → Target → Prop) [DecidableRel better] [DecidableEq Target]

/-- The place of a target is behind all that are better. -/
def insertEntry (entry : Source × Target) : List (Source × Target) → List (Source × Target)
  | [] => [entry]
  | first :: rest =>
    if better first.2 entry.2 then first :: insertEntry entry rest
    else if first.2 = entry.2 then (min first.1 entry.1, first.2) :: rest
    else entry :: first :: rest

def rankEntries (seen : List (Source × Target)) : List (Source × Target) :=
  seen.foldl (fun ranked entry => insertEntry better entry ranked) []

/-- The place is searched, and a target that becomes too many is dropped. -/
def considerEntry (limit : Nat) (shortlist : List (Source × Target)) (entry : Source × Target) :
    List (Source × Target) :=
  if shortlist.length = limit ∧ ∃ last ∈ shortlist.getLast?, better last.2 entry.2 then shortlist
  else
    let front := shortlist.takeWhile fun other => better other.2 entry.2
    let shorten (entries : List (Source × Target)) :=
      if limit < entries.length then entries.dropLast else entries
    match shortlist.dropWhile fun other => better other.2 entry.2 with
    | [] => shorten (front ++ [entry])
    | other :: rest =>
      if other.2 = entry.2 then front ++ (min other.1 entry.1, other.2) :: rest
      else shorten (front ++ entry :: other :: rest)

end Lists

theorem LeastSeen.unique {seen : List (Source × Target)} {first second : Source × Target}
    (hfirst : LeastSeen seen first) (hsecond : LeastSeen seen second)
    (hsame : first.2 = second.2) : first = second := by
  refine Prod.ext (le_antisymm ?_ ?_) hsame
  · exact hfirst.2 second.1 (by rw [hsame]; exact hsecond.1)
  · exact hsecond.2 first.1 (by rw [← hsame]; exact hfirst.1)

theorem exists_leastSeen {seen : List (Source × Target)} {entry : Source × Target}
    (hentry : entry ∈ seen) : ∃ source, LeastSeen seen (source, entry.2) := by
  induction seen generalizing entry with
  | nil => exact absurd hentry List.not_mem_nil
  | cons first seen ih =>
    by_cases hseen : ∃ source, (source, entry.2) ∈ seen
    · obtain ⟨source, hsource⟩ := hseen
      obtain ⟨least, hleast, hle⟩ := ih hsource
      by_cases hfirst : first.2 = entry.2 ∧ first.1 ≤ least
      · refine ⟨first.1, by rw [← hfirst.1]; exact List.mem_cons_self, fun other hother => ?_⟩
        rcases List.mem_cons.mp hother with hsame | hother
        · exact (congrArg Prod.fst hsame).ge
        · exact hfirst.2.trans (hle other hother)
      · refine ⟨least, List.mem_cons_of_mem _ hleast, fun other hother => ?_⟩
        rcases List.mem_cons.mp hother with hsame | hother
        · obtain ⟨hsource, htarget⟩ := Prod.mk.inj hsame
          rw [hsource]
          exact le_of_not_ge fun hless => hfirst ⟨htarget.symm, hless⟩
        · exact hle other hother
    · obtain rfl : entry = first := by
        rcases List.mem_cons.mp hentry with hfirst | hlater
        · exact hfirst
        · exact absurd ⟨entry.1, hlater⟩ hseen
      refine ⟨entry.1, List.mem_cons_self, fun other hother => ?_⟩
      rcases List.mem_cons.mp hother with hsame | hlater
      · exact (congrArg Prod.fst hsame).ge
      · exact absurd ⟨other, hlater⟩ hseen

section Rankings

variable {better : Target → Target → Prop} [IsStrictTotalOrder Target better]
  {seen ranked : List (Source × Target)}

variable {others : List (Source × Target)}

theorem Ranks.unique (hranked : Ranks better seen ranked) (hothers : Ranks better seen others) :
    ranked = others := by
  have : Std.Irrefl fun left right : Source × Target => better left.2 right.2 :=
    ⟨fun entry => irrefl entry.2⟩
  have : Std.Asymm fun left right : Source × Target => better left.2 right.2 :=
    ⟨fun left right hless => asymm hless⟩
  exact hranked.sorted.eq_of_mem_iff hothers.sorted fun entry => by
    rw [hranked.mem, hothers.mem]

omit [LinearOrder Source] in
theorem eq_of_target (hsorted : ranked.Pairwise fun left right => better left.2 right.2)
    {first second : Source × Target} (hfirst : first ∈ ranked) (hsecond : second ∈ ranked)
    (hsame : first.2 = second.2) : first = second := by
  have hnodup : (ranked.map Prod.snd).Nodup := by
    rw [List.Nodup, List.pairwise_map]
    refine hsorted.imp fun {left right} hless => ?_
    rintro heq
    rw [heq] at hless
    exact irrefl right.2 hless
  exact List.inj_on_of_nodup_map hnodup hfirst hsecond hsame

theorem Ranks.of_targets (hsorted : ranked.Pairwise fun left right => better left.2 right.2)
    (hseen : ∀ entry ∈ ranked, ∃ source, (source, entry.2) ∈ seen)
    (hleast : ∀ entry ∈ seen, ∃ source,
      (source, entry.2) ∈ ranked ∧ LeastSeen seen (source, entry.2)) :
    Ranks better seen ranked := by
  refine ⟨hsorted, fun entry => ⟨fun hentry => ?_, fun hentry => ?_⟩⟩
  · obtain ⟨other, hother⟩ := hseen entry hentry
    obtain ⟨source, hsource, hle⟩ := hleast _ hother
    rwa [eq_of_target hsorted hentry hsource rfl]
  · obtain ⟨source, hsource, hle⟩ := hleast _ hentry.1
    rwa [hentry.unique hle rfl]

section Insert

omit [IsStrictTotalOrder Target better]

variable [DecidableRel better] [DecidableEq Target] {entry : Source × Target}

theorem mem_insertEntry_other {other : Source × Target} (hother : other.2 ≠ entry.2) :
    other ∈ insertEntry better entry ranked ↔ other ∈ ranked := by
  induction ranked with
  | nil =>
    rw [insertEntry, List.mem_singleton]
    exact iff_of_false (fun hsame => hother (congrArg Prod.snd hsame)) List.not_mem_nil
  | cons first ranked ih =>
    rw [insertEntry]
    split
    · rw [List.mem_cons, List.mem_cons, ih]
    · split
      · next hsame =>
          have hnew : other ≠ (min first.1 entry.1, first.2) := fun heq =>
            hother ((congrArg Prod.snd heq).trans hsame)
          have hold : other ≠ first := fun heq => hother ((congrArg Prod.snd heq).trans hsame)
          rw [List.mem_cons, List.mem_cons, or_iff_right hnew, or_iff_right hold]
      · have hnew : other ≠ entry := fun heq => hother (congrArg Prod.snd heq)
        rw [List.mem_cons, or_iff_right hnew]

theorem mem_insertEntry_new (hnew : ∀ source, (source, entry.2) ∉ ranked) :
    entry ∈ insertEntry better entry ranked := by
  induction ranked with
  | nil => exact List.mem_singleton_self entry
  | cons first ranked ih =>
    rw [insertEntry]
    split
    · exact List.mem_cons_of_mem _ (ih fun source hsource =>
        hnew source (List.mem_cons_of_mem _ hsource))
    · split
      · next hsame => exact absurd (by rw [← hsame]; exact List.mem_cons_self) (hnew first.1)
      · exact List.mem_cons_self

theorem insertEntry_append {front rest : List (Source × Target)}
    (hfront : ∀ other ∈ front, better other.2 entry.2) :
    insertEntry better entry (front ++ rest) = front ++ insertEntry better entry rest := by
  induction front with
  | nil => rfl
  | cons first front ih =>
    obtain ⟨hfirst, hfront⟩ := List.forall_mem_cons.mp hfront
    rw [List.cons_append, insertEntry, if_pos hfirst, ih hfront, List.cons_append]

theorem take_insertEntry (better : Target → Target → Prop) [DecidableRel better]
    (entry : Source × Target) (limit : Nat) (ranked : List (Source × Target)) :
    (insertEntry better entry (ranked.take limit)).take limit =
      (insertEntry better entry ranked).take limit := by
  induction ranked generalizing limit with
  | nil => rw [List.take_nil]
  | cons first ranked ih =>
    cases limit with
    | zero => rw [List.take_zero, List.take_zero]
    | succ limit =>
      rw [List.take_succ_cons, insertEntry, insertEntry]
      split
      · rw [List.take_succ_cons, List.take_succ_cons, ih]
      · split
        · rw [List.take_succ_cons, List.take_succ_cons, List.take_take, Nat.min_self]
        · rw [List.take_succ_cons, List.take_succ_cons]
          cases limit with
          | zero => rfl
          | succ limit =>
            rw [List.take_succ_cons, List.take_succ_cons, List.take_take,
              Nat.min_eq_left (Nat.le_succ limit)]

end Insert

variable [DecidableRel better] [DecidableEq Target] {entry : Source × Target}

theorem mem_insertEntry_seen (hsorted : ranked.Pairwise fun left right => better left.2 right.2)
    {source : Source} (hsource : (source, entry.2) ∈ ranked) :
    (min source entry.1, entry.2) ∈ insertEntry better entry ranked := by
  obtain ⟨front, rest, rfl⟩ := List.append_of_mem hsource
  obtain ⟨-, -, hfront⟩ := List.pairwise_append.mp hsorted
  have hbetter : ∀ other ∈ front, better other.2 entry.2 := fun other hother =>
    hfront other hother (source, entry.2) List.mem_cons_self
  rw [insertEntry_append hbetter, insertEntry, if_neg (irrefl _), if_pos rfl]
  exact List.mem_append_right _ List.mem_cons_self

theorem insertEntry_sorted (hsorted : ranked.Pairwise fun left right => better left.2 right.2) :
    (insertEntry better entry ranked).Pairwise fun left right => better left.2 right.2 := by
  induction ranked with
  | nil => exact List.pairwise_singleton _ _
  | cons first ranked ih =>
    obtain ⟨hfirst, hranked⟩ := List.pairwise_cons.mp hsorted
    rw [insertEntry]
    split
    · next hbetter =>
        refine List.pairwise_cons.mpr ⟨fun other hother => ?_, ih hranked⟩
        by_cases hsame : other.2 = entry.2
        · rwa [hsame]
        · exact hfirst other ((mem_insertEntry_other hsame).mp hother)
    · next hnot =>
        split
        · exact List.pairwise_cons.mpr ⟨hfirst, hranked⟩
        · next hne =>
            have hbetter : better entry.2 first.2 := by
              rcases trichotomous_of better first.2 entry.2 with hless | hsame | hmore
              · exact absurd hless hnot
              · exact absurd hsame hne
              · exact hmore
            refine List.pairwise_cons.mpr ⟨fun other hother => ?_, hsorted⟩
            rcases List.mem_cons.mp hother with rfl | hother
            · exact hbetter
            · exact IsTrans.trans _ _ _ hbetter (hfirst other hother)

theorem Ranks.insert (hranked : Ranks better seen ranked) (entry : Source × Target) :
    Ranks better (seen ++ [entry]) (insertEntry better entry ranked) := by
  have hgrown : ∀ other source, (source, other) ∈ seen ++ [entry] ↔
      (source, other) ∈ seen ∨ (source, other) = entry := by
    intro other source
    rw [List.mem_append, List.mem_singleton]
  refine .of_targets (insertEntry_sorted hranked.sorted) (fun other hother => ?_)
    fun other hother => ?_
  · by_cases hsame : other.2 = entry.2
    · exact ⟨entry.1, (hgrown _ _).mpr (.inr (Prod.ext rfl hsame))⟩
    · have hold := (hranked.mem other).mp ((mem_insertEntry_other hsame).mp hother)
      exact ⟨other.1, (hgrown _ _).mpr (.inl hold.1)⟩
  · by_cases hsame : other.2 = entry.2
    · rw [hsame]
      by_cases hseen : ∃ source, (source, entry.2) ∈ seen
      · obtain ⟨any, hany⟩ := hseen
        obtain ⟨source, hleast⟩ := exists_leastSeen hany
        refine ⟨_, mem_insertEntry_seen hranked.sorted ((hranked.mem _).mpr hleast), ?_, ?_⟩
        · rcases le_total source entry.1 with hle | hle
          · rw [min_eq_left hle]
            exact (hgrown _ _).mpr (.inl hleast.1)
          · rw [min_eq_right hle]
            exact (hgrown _ _).mpr (.inr rfl)
        · intro value hvalue
          rcases (hgrown _ _).mp hvalue with hold | hnew
          · exact (min_le_left _ _).trans (hleast.2 value hold)
          · exact (min_le_right _ _).trans (congrArg Prod.fst hnew).ge
      · refine ⟨entry.1, mem_insertEntry_new fun source hsource => ?_,
          (hgrown _ _).mpr (.inr rfl), fun value hvalue => ?_⟩
        · exact hseen ⟨source, ((hranked.mem _).mp hsource).1⟩
        · rcases (hgrown _ _).mp hvalue with hold | hnew
          · exact absurd ⟨value, hold⟩ hseen
          · exact (congrArg Prod.fst hnew).ge
    · have hold : other ∈ seen := by
        rcases (hgrown other.2 other.1).mp hother with hold | hnew
        · exact hold
        · exact absurd (congrArg Prod.snd hnew) hsame
      obtain ⟨source, hleast⟩ := exists_leastSeen hold
      have hmember : (source, other.2) ∈ insertEntry better entry ranked := by
        rw [@mem_insertEntry_other _ _ _ _ _ _ _ _ (source, other.2) hsame, hranked.mem]
        exact hleast
      refine ⟨source, hmember, (hgrown _ _).mpr (.inl hleast.1), fun value hvalue => ?_⟩
      rcases (hgrown _ _).mp hvalue with hold | hnew
      · exact hleast.2 value hold
      · exact absurd (congrArg Prod.snd hnew) hsame

theorem rankEntries_ranks (better : Target → Target → Prop) [IsStrictTotalOrder Target better]
    [DecidableRel better] (seen : List (Source × Target)) :
    Ranks better seen (rankEntries better seen) := by
  induction seen using List.reverseRecOn with
  | nil => exact ⟨.nil, fun entry => by simp [rankEntries, LeastSeen]⟩
  | append_singleton seen entry ih =>
    rw [rankEntries, List.foldl_append]
    exact ih.insert entry

theorem rankEntries_congr (hsame : ∀ entry, entry ∈ seen ↔ entry ∈ others) :
    rankEntries better seen = rankEntries better others := by
  have hleast : ∀ entry, LeastSeen seen entry ↔ LeastSeen others entry := by
    intro entry
    simp only [LeastSeen, hsame]
  refine (rankEntries_ranks better seen).unique ⟨(rankEntries_ranks better others).sorted, ?_⟩
  intro entry
  rw [hleast, (rankEntries_ranks better others).mem]

theorem considerEntry_take (hsorted : ranked.Pairwise fun left right => better left.2 right.2)
    (limit : Nat) (entry : Source × Target) :
    considerEntry better limit (ranked.take limit) entry =
      (insertEntry better entry ranked).take limit := by
  have hlimit : (ranked.take limit).length ≤ limit := List.length_take_le _ _
  rw [← take_insertEntry]
  set shortlist := ranked.take limit with hshortlist
  have hshortSorted : shortlist.Pairwise fun left right => better left.2 right.2 :=
    hsorted.sublist (List.take_sublist _ _)
  rw [considerEntry]
  split
  · next hfull =>
      obtain ⟨hlength, last, hlast, hbetter⟩ := hfull
      have hall : ∀ other ∈ shortlist, better other.2 entry.2 := by
        intro other hother
        obtain ⟨front, hfront⟩ := List.getLast?_eq_some_iff.mp hlast
        rw [hfront] at hother hshortSorted
        rcases List.mem_append.mp hother with hother | hother
        · exact IsTrans.trans _ _ _ ((List.pairwise_append.mp hshortSorted).2.2 other hother last
            (List.mem_singleton_self last)) hbetter
        · rwa [List.mem_singleton.mp hother]
      have hinsert := @insertEntry_append _ _ _ better _ _ entry shortlist [] hall
      rw [List.append_nil] at hinsert
      rw [hinsert, List.take_append_of_le_length hlength.ge, List.take_of_length_le hlength.le]
  · dsimp only
    have hsplit : (shortlist.takeWhile fun other => better other.2 entry.2) ++
        (shortlist.dropWhile fun other => better other.2 entry.2) = shortlist :=
      List.takeWhile_append_dropWhile
    have hfront : ∀ other ∈ shortlist.takeWhile fun other => better other.2 entry.2,
        better other.2 entry.2 := by
      intro other hother
      have htaken := List.mem_takeWhile_imp hother
      exact of_decide_eq_true htaken
    have hinsert : insertEntry better entry shortlist =
        (shortlist.takeWhile fun other => better other.2 entry.2) ++ insertEntry better entry
          (shortlist.dropWhile fun other => better other.2 entry.2) := by
      rw [← insertEntry_append hfront, hsplit]
    have hlength := congrArg List.length hsplit
    rw [List.length_append] at hlength
    rw [hinsert]
    split
    · next hrest =>
        rw [hrest, List.length_nil] at hlength
        rw [hrest, insertEntry]
        split
        · next hlong =>
            rw [List.dropLast_eq_take]
            congr 1
            rw [List.length_append, List.length_singleton] at hlong ⊢
            omega
        · next hshort => rw [List.take_of_length_le (Nat.le_of_not_lt hshort)]
    · next other rest hrest =>
        have hnot : ¬ better other.2 entry.2 := by
          have hhead := List.head?_dropWhile_not (fun other => decide (better other.2 entry.2))
            shortlist
          rw [hrest] at hhead
          simpa using hhead
        rw [hrest, List.length_cons] at hlength
        rw [hrest, insertEntry, if_neg hnot]
        split
        · rw [List.take_of_length_le]
          rw [List.length_append, List.length_cons]
          omega
        · split
          · next hlong =>
              rw [List.dropLast_eq_take]
              congr 1
              rw [List.length_append, List.length_cons, List.length_cons] at hlong ⊢
              omega
          · next hshort => rw [List.take_of_length_le (Nat.le_of_not_lt hshort)]

theorem foldl_considerEntry (limit : Nat) (seen : List (Source × Target)) :
    seen.foldl (considerEntry better limit) [] = (rankEntries better seen).take limit := by
  induction seen using List.reverseRecOn with
  | nil => exact List.take_nil.symm
  | append_singleton seen entry ih =>
    rw [List.foldl_append, ih, rankEntries.eq_def better (seen ++ [entry]), List.foldl_append]
    exact considerEntry_take (rankEntries_ranks better seen).sorted limit entry

theorem mem_take_of_part {limit : Nat} {part : List (Source × Target)}
    (hpart : ∀ entry ∈ part, entry ∈ seen) {entry : Source × Target} (hentry : entry ∈ part)
    (htop : entry ∈ (rankEntries better seen).take limit) :
    entry ∈ (rankEntries better part).take limit := by
  have hall := rankEntries_ranks better seen
  have hranks := rankEntries_ranks better part
  have hleast := (hall.mem entry).mp (List.mem_of_mem_take htop)
  have hmember : entry ∈ rankEntries better part :=
    (hranks.mem entry).mpr ⟨hentry, fun source hsource => hleast.2 source (hpart _ hsource)⟩
  obtain ⟨front, rest, hsplit⟩ := List.append_of_mem hmember
  obtain ⟨best, behind, htake⟩ := List.append_of_mem htop
  have hbest : best.length < limit := by
    have hlength := List.length_take_le limit (rankEntries better seen)
    rw [htake, List.length_append, List.length_cons] at hlength
    omega
  have hsorted := hall.sorted
  rw [← List.take_append_drop limit (rankEntries better seen), htake, List.append_assoc,
    List.cons_append] at hsorted
  have hfrontSorted := hranks.sorted
  rw [hsplit] at hfrontSorted
  -- The targets before the entry in the part are before it in the ranking of all.
  have hbefore : front.map Prod.snd ⊆ best.map Prod.snd := by
    intro target htarget
    obtain ⟨other, hother, rfl⟩ := List.mem_map.mp htarget
    have hbetter : better other.2 entry.2 :=
      (List.pairwise_append.mp hfrontSorted).2.2 other hother entry List.mem_cons_self
    have hotherMember : other ∈ rankEntries better part := by
      rw [hsplit]
      exact List.mem_append_left _ hother
    obtain ⟨source, hsource⟩ :=
      exists_leastSeen (hpart other ((hranks.mem other).mp hotherMember).1)
    have hranked := (hall.mem _).mpr hsource
    rw [← List.take_append_drop limit (rankEntries better seen), htake, List.append_assoc,
      List.cons_append] at hranked
    rcases List.mem_append.mp hranked with hbest | hbehind
    · exact List.mem_map.mpr ⟨_, hbest, rfl⟩
    · rcases List.mem_cons.mp hbehind with hsame | hworse
      · exact absurd (congrArg Prod.snd hsame ▸ hbetter) (irrefl entry.2)
      · have hless := (List.pairwise_cons.mp (List.pairwise_append.mp hsorted).2.1).1 _ hworse
        exact absurd hless (asymm hbetter)
  have hnodup : (front.map Prod.snd).Nodup := by
    rw [List.Nodup, List.pairwise_map]
    refine (List.pairwise_append.mp hfrontSorted).1.imp fun {left right} hless => ?_
    rintro hsame
    rw [hsame] at hless
    exact irrefl right.2 hless
  have hlength := (List.subperm_of_subset hnodup hbefore).length_le
  rw [List.length_map, List.length_map] at hlength
  rw [hsplit, List.take_append, show limit - front.length = limit - front.length - 1 + 1 by omega,
    List.take_succ_cons]
  exact List.mem_append_right _ List.mem_cons_self

omit [DecidableRel better] in
theorem take_of_best {limit : Nat} {best : List (Source × Target)}
    (hbest : best.Pairwise fun left right => better left.2 right.2)
    (hothers : others.Pairwise fun left right => better left.2 right.2)
    (hmem : ∀ entry ∈ best, entry ∈ others) (hlength : best.length ≤ limit)
    (hworse : ∀ entry ∈ others, entry ∉ best →
      best.length = limit ∧ ∀ other ∈ best, better other.2 entry.2) :
    others.take limit = best := by
  have : Std.Irrefl fun left right : Source × Target => better left.2 right.2 :=
    ⟨fun entry => irrefl entry.2⟩
  have : Std.Asymm fun left right : Source × Target => better left.2 right.2 :=
    ⟨fun left right hless => asymm hless⟩
  have hsplit : others = best ++ others.filter (· ∉ best) := by
    refine hothers.eq_of_mem_iff (List.pairwise_append.mpr
      ⟨hbest, hothers.sublist List.filter_sublist, fun first hfirst second hsecond => ?_⟩)
      fun entry => ?_
    · rw [List.mem_filter, decide_eq_true_iff] at hsecond
      exact (hworse second hsecond.1 hsecond.2).2 first hfirst
    · rw [List.mem_append, List.mem_filter, decide_eq_true_iff]
      constructor
      · intro hentry
        by_cases hin : entry ∈ best
        · exact .inl hin
        · exact .inr ⟨hentry, hin⟩
      · rintro (hin | hentry)
        · exact hmem entry hin
        · exact hentry.1
  cases hrest : others.filter (· ∉ best) with
  | nil =>
    rw [hrest, List.append_nil] at hsplit
    rw [hsplit, List.take_of_length_le hlength]
  | cons entry rest =>
    have hentry : entry ∈ others.filter (· ∉ best) := by
      rw [hrest]
      exact List.mem_cons_self
    rw [List.mem_filter, decide_eq_true_iff] at hentry
    have hfull := (hworse entry hentry.1 hentry.2).1
    rw [hsplit, List.take_append_of_le_length hfull.ge, List.take_of_length_le hfull.le]

theorem rankEntries_shortlists (limit : Nat) (parts : List (List (Source × Target))) :
    (rankEntries better (parts.flatMap fun part => (rankEntries better part).take limit)).take
        limit = (rankEntries better parts.flatten).take limit := by
  have hall := rankEntries_ranks better parts.flatten
  have hmerged := rankEntries_ranks better
    (parts.flatMap fun part => (rankEntries better part).take limit)
  have hseen : ∀ entry ∈ parts.flatMap fun part => (rankEntries better part).take limit,
      entry ∈ parts.flatten := by
    intro entry hentry
    obtain ⟨part, hpart, htop⟩ := List.mem_flatMap.mp hentry
    have hleast := ((rankEntries_ranks better part).mem entry).mp (List.mem_of_mem_take htop)
    exact List.mem_flatten.mpr ⟨part, hpart, hleast.1⟩
  have hkept : ∀ entry ∈ (rankEntries better parts.flatten).take limit,
      entry ∈ rankEntries better
        (parts.flatMap fun part => (rankEntries better part).take limit) := by
    intro entry htop
    have hleast := (hall.mem entry).mp (List.mem_of_mem_take htop)
    obtain ⟨part, hpart, hentry⟩ := List.mem_flatten.mp hleast.1
    refine (hmerged.mem entry).mpr ⟨List.mem_flatMap.mpr ⟨part, hpart, ?_⟩,
      fun source hsource => hleast.2 source (hseen _ hsource)⟩
    exact mem_take_of_part (fun other hother => List.mem_flatten.mpr ⟨part, hpart, hother⟩)
      hentry htop
  refine take_of_best (hall.sorted.sublist (List.take_sublist _ _)) hmerged.sorted hkept
    (List.length_take_le _ _) fun entry hentry hout => ?_
  obtain ⟨source, hleast⟩ := exists_leastSeen (hseen entry ((hmerged.mem entry).mp hentry).1)
  have hranked := (hall.mem _).mpr hleast
  have hsorted := hall.sorted
  rw [← List.take_append_drop limit (rankEntries better parts.flatten)] at hranked hsorted
  have hdropped : (source, entry.2) ∈ (rankEntries better parts.flatten).drop limit := by
    rcases List.mem_append.mp hranked with htop | hdropped
    · rw [eq_of_target hmerged.sorted hentry (hkept _ htop) rfl] at hout
      exact absurd htop hout
    · exact hdropped
  refine ⟨?_, fun other hother =>
    (List.pairwise_append.mp hsorted).2.2 other hother (source, entry.2) hdropped⟩
  have hmore := List.length_pos_of_mem hdropped
  rw [List.length_drop] at hmore
  rw [List.length_take]
  omega

end Rankings

end Foundation

import SkipCell.DiskIndex.LabelMedoids

/-! # Breaking up dense points

`breakup_dense_points` gives the labels of a point beyond the density to new points. Its writer
counts to the number of labels less one, which without labels is the greatest size.
-/

namespace SkipCell.DiskIndex

structure DensePoints where
  labelsPerPoint : Lines
  dummyPtIds : List (Nat × Nat)
  /-- Of 32 bits. -/
  nextDummyId : Nat

namespace DensePoints

/-- `std::vector::resize`. -/
def resize (lines : Lines) (size : Nat) : Lines :=
  lines.take size ++ List.replicate (size - lines.length) []

def addDummy (points : DensePoints) (pointCnt : Nat) : DensePoints where
  labelsPerPoint := resize points.labelsPerPoint ((points.nextDummyId + 1) % 2 ^ 32)
  dummyPtIds := points.dummyPtIds ++ [(points.nextDummyId, pointCnt)]
  nextDummyId := (points.nextDummyId + 1) % 2 ^ 32

def pushLabel (points : DensePoints) (labelHost label : Nat) : Option DensePoints :=
  if labelHost < points.labelsPerPoint.length then
    some { points with labelsPerPoint := points.labelsPerPoint.modify labelHost (· ++ [label]) }
  else none

/-- The tokens of a line. -/
def addLabels (density pointCnt : Nat) :
    List Nat → Nat → Nat → DensePoints → Option DensePoints
  | [], _, _, points => some points
  | label :: labels, lblCnt, labelHost, points =>
    if lblCnt = density then do
      let pushed ← (points.addDummy pointCnt).pushLabel points.nextDummyId label
      addLabels density pointCnt labels 1 points.nextDummyId pushed
    else do
      let pushed ← points.pushLabel labelHost label
      addLabels density pointCnt labels (lblCnt + 1) labelHost pushed

def addLines (density : Nat) : Nat → Lines → DensePoints → Option DensePoints
  | _, [], points => some points
  | pointCnt, line :: lines, points => do
    let added ← addLabels density pointCnt line 0 pointCnt points
    addLines density (pointCnt + 1) lines added

end DensePoints

/-- The lines of the writer. Of a point without labels it reads labels without end. -/
def writeLabels (labelsPerPoint : Lines) : Option Lines :=
  labelsPerPoint.mapM fun labels => if labels = [] then none else some labels

/-- The label file and the dummy map. The vectors are copied by the map. -/
def breakupDensePoints (npts density : Nat) (labels : Lines) :
    Option (Lines × List (Nat × Nat)) := do
  let points ← DensePoints.addLines density 0 labels ⟨List.replicate npts [], [], npts⟩
  let written ← writeLabels points.labelsPerPoint
  if ∀ dummy ∈ points.dummyPtIds, dummy.1 < written.length ∧ dummy.2 < written.length then
    some (written, points.dummyPtIds)
  else none

/-- The groups of labels behind the first, of which `room` labels are. -/
def furtherGroups (density room : Nat) (line : List Nat) : Lines :=
  (line.toChunksAux (density - 1) room).2

section Groups

variable {density : Nat} (line : List Nat) (room : Nat)

theorem toChunksAux_fst : (line.toChunksAux (density - 1) room).1 = line.take room := by
  induction line generalizing room with
  | nil => simp [List.toChunksAux]
  | cons label line ih =>
    cases room with
    | zero => rfl
    | succ room => simp [List.toChunksAux, ih]

theorem furtherGroups_zero (label : Nat) :
    furtherGroups density 0 (label :: line) =
      (label :: line.take (density - 1)) :: furtherGroups density (density - 1) line := by
  simp [furtherGroups, List.toChunksAux, toChunksAux_fst]

theorem furtherGroups_succ (label : Nat) :
    furtherGroups density (room + 1) (label :: line) = furtherGroups density room line := rfl

theorem furtherGroups_split (hdensity : 1 ≤ density) :
    line.take room ++ (furtherGroups density room line).flatten = line ∧
      ∀ group ∈ furtherGroups density room line, group ≠ [] ∧ group.length ≤ density := by
  induction line generalizing room with
  | nil => simp [furtherGroups, List.toChunksAux]
  | cons label line ih =>
    cases room with
    | zero =>
      obtain ⟨hflatten, hgroups⟩ := ih (density - 1)
      rw [furtherGroups_zero]
      refine ⟨by simpa using hflatten, List.forall_mem_cons.mpr ⟨⟨List.cons_ne_nil _ _, ?_⟩,
        hgroups⟩⟩
      rw [List.length_cons, List.length_take]
      omega
    | succ room =>
      obtain ⟨hflatten, hgroups⟩ := ih room
      rw [furtherGroups_succ]
      exact ⟨by simpa using hflatten, hgroups⟩

end Groups

/-- The entries of the dummy map for the groups of a point. -/
def dummiesOf (point next : Nat) (groups : Lines) : List (Nat × Nat) :=
  (List.range' next groups.length).map (·, point)

/-- The entries for the points from `point` on. -/
def dummyEntries (density : Nat) : Nat → Nat → Lines → List (Nat × Nat)
  | _, _, [] => []
  | point, next, line :: lines =>
    let groups := furtherGroups density density line
    dummiesOf point next groups ++
      dummyEntries density (point + 1) (next + groups.length) lines

namespace DensePoints

theorem addLabels_eq {density pointCnt : Nat} (line : List Nat) {room lblCnt labelHost : Nat}
    {points : DensePoints} (hroom : lblCnt + room = density) (hdensity : 1 ≤ density)
    (hhost : labelHost < points.labelsPerPoint.length)
    (hnext : points.labelsPerPoint.length = points.nextDummyId)
    (hsmall : points.nextDummyId < 2 ^ 32) :
    addLabels density pointCnt line lblCnt labelHost points =
      if points.nextDummyId + (furtherGroups density room line).length < 2 ^ 32 then
        some
          { labelsPerPoint := points.labelsPerPoint.modify labelHost (· ++ line.take room) ++
              furtherGroups density room line
            dummyPtIds := points.dummyPtIds ++
              dummiesOf pointCnt points.nextDummyId (furtherGroups density room line)
            nextDummyId := points.nextDummyId + (furtherGroups density room line).length }
      else none := by
  have hkept : ∀ (lines : Lines) host, lines.modify host (fun labels => labels) = lines :=
    fun lines host => List.modify_id host lines
  have hhosted : ∀ (lines : Lines) host change,
      (lines ++ [host]).modify lines.length change = lines ++ [change host] := by
    intro lines host change
    simp [List.modify_eq_take_drop]
  induction line generalizing room lblCnt labelHost points with
  | nil =>
    have hnone : furtherGroups density room [] = [] := rfl
    simpa [addLabels, hnone, dummiesOf, hkept] using hsmall
  | cons label line ih =>
    cases room with
    | zero =>
      have hcount : lblCnt = density := hroom
      rw [addLabels, if_pos hcount, pushLabel, furtherGroups_zero]
      by_cases hlast : points.nextDummyId + 1 = 2 ^ 32
      · rw [if_neg (by simp [addDummy, resize, hlast]), if_neg (by simp; omega)]
        rfl
      · have hmod : (points.labelsPerPoint.length + 1) % 2 ^ 32 =
            points.labelsPerPoint.length + 1 := Nat.mod_eq_of_lt (by omega)
        have hgrown : points.addDummy pointCnt = ⟨points.labelsPerPoint ++ [[]],
            points.dummyPtIds ++ [(points.nextDummyId, pointCnt)], points.nextDummyId + 1⟩ := by
          simp only [addDummy, resize, ← hnext, hmod]
          simp [List.take_of_length_le]
        rw [hgrown, if_pos (by simp [hnext])]
        refine (@ih (density - 1) 1 _ _ (by omega) (by simp [hnext]) (by simp [hnext])
          (by dsimp only; omega)).trans ?_
        simp [← hnext, hkept, hhosted, dummiesOf, List.range'_succ, Nat.add_assoc, Nat.add_comm 1]
    | succ room =>
      have hcount : lblCnt ≠ density := by omega
      rw [addLabels, if_neg hcount, pushLabel, if_pos hhost, Option.bind_eq_bind, Option.bind_some]
      refine (@ih room (lblCnt + 1) labelHost
        ⟨points.labelsPerPoint.modify labelHost (· ++ [label]), _, _⟩ (by omega)
        (by simpa using hhost) (by simpa using hnext) hsmall).trans ?_
      rw [furtherGroups_succ]
      simp [List.modify_modify_eq, Function.comp_def]

/-- The lines from `done` on. -/
theorem addLines_eq {density : Nat} (hdensity : 1 ≤ density) (lines : Lines)
    {done further : Lines} {dummies : List (Nat × Nat)} {next : Nat}
    (hnext : done.length + lines.length + further.length = next) (hsmall : next < 2 ^ 32) :
    addLines density done.length lines
        ⟨done ++ lines.map (fun _ => []) ++ further, dummies, next⟩ =
      if next + (lines.flatMap (furtherGroups density density)).length < 2 ^ 32 then
        some ⟨done ++ lines.map (List.take density) ++ further ++
            lines.flatMap (furtherGroups density density),
          dummies ++ dummyEntries density done.length next lines,
          next + (lines.flatMap (furtherGroups density density)).length⟩
      else none := by
  induction lines generalizing done further dummies next with
  | nil => simpa [addLines, dummyEntries] using hsmall
  | cons line lines ih =>
    rw [List.length_cons] at hnext
    rw [addLines, addLabels_eq line (Nat.zero_add density) hdensity (by simp)
      (by simp; omega) hsmall]
    by_cases hfits : next + (furtherGroups density density line).length < 2 ^ 32
    · have hstate : (done ++ (line :: lines).map (fun _ => []) ++ further).modify done.length
          (· ++ line.take density) ++ furtherGroups density density line =
            done ++ [line.take density] ++ lines.map (fun _ => []) ++
              (further ++ furtherGroups density density line) := by
        simp [List.modify_eq_take_drop]
      rw [if_pos hfits, Option.bind_eq_bind, Option.bind_some, hstate]
      have hrest := @ih (done ++ [line.take density])
        (further ++ furtherGroups density density line)
        (dummies ++ dummiesOf done.length next (furtherGroups density density line)) _
        (by simp; omega) hfits
      rw [List.length_append, List.length_singleton] at hrest
      rw [hrest]
      simp [dummyEntries, Nat.add_assoc]
    · rw [if_neg hfits, if_neg (by rw [List.flatMap_cons, List.length_append]; omega)]
      rfl

end DensePoints

theorem writeLabels_eq (lines : Lines) :
    writeLabels lines = if [] ∈ lines then none else some lines := by
  induction lines with
  | nil => rfl
  | cons line lines ih =>
    rw [writeLabels] at ih ⊢
    rw [List.mapM_cons, ih]
    by_cases hline : line = []
    · simp [hline]
    · by_cases hlines : [] ∈ lines <;> simp [hline, hlines, Ne.symm hline]

section Entries

variable (density : Nat) (labels : Lines)

theorem dummyEntries_fst (point next : Nat) :
    (dummyEntries density point next labels).map Prod.fst =
      List.range' next (labels.flatMap (furtherGroups density density)).length := by
  induction labels generalizing point next with
  | nil => rfl
  | cons line lines ih =>
    rw [dummyEntries, List.map_append, ih, List.flatMap_cons, List.length_append,
      ← List.range'_append_1]
    simp [dummiesOf, Function.comp_def]

theorem dummyEntries_snd (point next : Nat) :
    (dummyEntries density point next labels).map Prod.snd =
      (labels.zipIdx point).flatMap fun (line, origin) =>
        List.replicate (furtherGroups density density line).length origin := by
  induction labels generalizing point next with
  | nil => rfl
  | cons line lines ih =>
    rw [dummyEntries, List.map_append, ih, List.zipIdx_cons, List.flatMap_cons]
    simp [dummiesOf, Function.comp_def, List.map_const']

/-- The points keep their first labels, and each further group is that of a new point. -/
structure BrokenUp (written : Lines) (dummies : List (Nat × Nat)) : Prop where
  kept : written.take labels.length = labels.map (List.take density)
  fresh : written.drop labels.length = labels.flatMap (furtherGroups density density)
  groups : ∀ line ∈ labels,
    line.take density ++ (furtherGroups density density line).flatten = line ∧
      ∀ group ∈ furtherGroups density density line, group ≠ [] ∧ group.length ≤ density
  ids : dummies.map Prod.fst = List.range' labels.length (written.length - labels.length)
  origins : dummies.map Prod.snd = labels.zipIdx.flatMap fun (line, origin) =>
    List.replicate (furtherGroups density density line).length origin

/-- `load_bin` reads a number of points of 31 bits. -/
theorem breakupDensePoints_iff (hdensity : 1 ≤ density) (hpoints : labels.length < 2 ^ 31) :
    (∃ written dummies,
      breakupDensePoints labels.length density labels = some (written, dummies) ∧
        BrokenUp density labels written dummies) ↔
        (∀ line ∈ labels, line ≠ []) ∧
          labels.length + (labels.flatMap (furtherGroups density density)).length < 2 ^ 32 := by
  have hgroups : ∀ line ∈ labels, _ := fun line _ => furtherGroups_split line density hdensity
  have hempty : [] ∈ labels.map (List.take density) ++
      labels.flatMap (furtherGroups density density) ↔ ¬ ∀ line ∈ labels, line ≠ [] := by
    have hfurther : [] ∉ labels.flatMap (furtherGroups density density) := by
      rw [List.mem_flatMap]
      rintro ⟨line, hline, hgroup⟩
      exact ((hgroups line hline).2 _ hgroup).1 rfl
    have hpositive : density ≠ 0 := by omega
    simp [hfurther, hpositive]
  have hlines := @DensePoints.addLines_eq density hdensity labels [] [] [] labels.length (by simp)
    (by omega)
  simp only [List.length_nil, List.nil_append, List.append_nil, List.map_const'] at hlines
  simp only [breakupDensePoints, hlines, Option.bind_eq_bind]
  by_cases hfits : labels.length + (labels.flatMap (furtherGroups density density)).length < 2 ^ 32
  · rw [if_pos hfits, Option.bind_some]
    dsimp only
    rw [writeLabels_eq]
    by_cases hsome : ∀ line ∈ labels, line ≠ []
    · have hids := dummyEntries_fst density labels 0 labels.length
      have horigins := dummyEntries_snd density labels 0 labels.length
      have hlength : (labels.map (List.take density) ++
          labels.flatMap (furtherGroups density density)).length =
            labels.length + (labels.flatMap (furtherGroups density density)).length := by
        rw [List.length_append, List.length_map]
      have hinside : ∀ dummy ∈ dummyEntries density 0 labels.length labels,
          dummy.1 < labels.length + (labels.flatMap (furtherGroups density density)).length ∧
            dummy.2 < labels.length + (labels.flatMap (furtherGroups density density)).length := by
        intro dummy hdummy
        have hid := List.mem_map_of_mem (f := Prod.fst) hdummy
        have horigin := List.mem_map_of_mem (f := Prod.snd) hdummy
        rw [hids, List.mem_range'_1] at hid
        rw [horigins, List.mem_flatMap] at horigin
        obtain ⟨⟨line, origin⟩, hline, hmem⟩ := horigin
        obtain ⟨-, heq⟩ := List.mem_replicate.mp hmem
        have hbound := (List.mem_zipIdx' hline).1
        exact ⟨hid.2, by omega⟩
      rw [if_neg (fun hmem => hempty.mp hmem hsome), Option.bind_some, hlength, if_pos hinside]
      refine iff_of_true ⟨_, _, rfl, ⟨?_, ?_, hgroups, ?_, horigins⟩⟩ ⟨hsome, hfits⟩
      · rw [← List.length_map (List.take density), List.take_left]
      · rw [← List.length_map (List.take density), List.drop_left]
      · rw [hids, hlength, Nat.add_sub_cancel_left]
    · rw [if_pos (hempty.mpr hsome)]
      exact iff_of_false (fun ⟨_, _, hnone, _⟩ => nomatch hnone) fun h => hsome h.1
  · rw [if_neg hfits]
    exact iff_of_false (fun ⟨_, _, hnone, _⟩ => nomatch hnone) fun h => hfits h.2

end Entries

/-- The labels of the first point are two groups. -/
theorem breakupDensePoints_iff_two :
    (∃ written dummies, breakupDensePoints 2 1 [[3, 5], [4]] = some (written, dummies) ∧
      BrokenUp 1 [[3, 5], [4]] written dummies) ↔
        (∀ line ∈ [[3, 5], [4]], line ≠ []) ∧
          2 + ([[3, 5], [4]].flatMap (furtherGroups 1 1)).length < 2 ^ 32 :=
  breakupDensePoints_iff 1 [[3, 5], [4]] (by decide) (by decide)

/-- The only point has no labels. -/
theorem not_breakupDensePoints : ¬ ∃ written dummies,
    breakupDensePoints 1 1 [[]] = some (written, dummies) ∧
      BrokenUp 1 [[]] written dummies := by
  rintro ⟨_, _, hrun, -⟩
  cases (show breakupDensePoints 1 1 [[]] = none by decide).symm.trans hrun

end SkipCell.DiskIndex

import Mathlib

/-! # The label-to-medoid file of a filtered build

`vamana_index_t::save` writes the entry points of the labels to `labels_to_medoids_.txt` behind the
name of the index. The disk build and the merge of shards read `_labels_to_medoids.txt`.
-/

namespace SkipCell.DiskIndex

abbrev Lines := List (List Nat)

abbrev TextFiles := String → Option Lines

namespace TextFiles

def write (files : TextFiles) (path : String) (lines : Lines) : TextFiles :=
  Function.update files path (some lines)

def remove (files : TextFiles) (path : String) : TextFiles :=
  Function.update files path none

/-- Nothing is read from a path without a file. -/
def read (files : TextFiles) (path : String) : Lines := (files path).getD []

def copy (files : TextFiles) (inFile outFile : String) : TextFiles :=
  files.write outFile (files.read inFile)

end TextFiles

section Build

-- `label_to_start_id_` after `build_filtered_index`, in the order of the table
variable (labelToStartId : Lines → List (Nat × Nat)) (useUniversalLabel : Bool)

/-- The label files of `save`. `set_universal_label` was called with 0. -/
def saveLabels (filename : String) (locationToLabels : Lines) (files : TextFiles) : TextFiles :=
  let medoids := labelToStartId locationToLabels
  let files := if medoids = [] then files
    else files.write (filename ++ "labels_to_medoids_.txt") (medoids.map fun (l, m) => [l, m])
  let files := if useUniversalLabel then files.write (filename ++ "universal_label_.txt") [[0]]
    else files
  if locationToLabels = [] then files
  else files.write (filename ++ "labels_.txt") locationToLabels

/-- `extract_shard_labels`, at line `counter` of the labels. -/
def extractShardLabels (counter : Nat) : List Nat → Lines → Lines
  | [], _ | _, [] => []
  | id :: ids, line :: lines =>
    if counter = id then line :: extractShardLabels (counter + 1) ids lines
    else extractShardLabels (counter + 1) (id :: ids) lines

def shardPath (memIndexPath : String) (shard : Nat) : String :=
  memIndexPath ++ "temp_files_subshard-" ++ toString shard

def buildShard (memIndexPath : String) (labels : Lines) (files : TextFiles)
    (shard : List Nat × Nat) : TextFiles :=
  let path := shardPath memIndexPath shard.2
  let shardLabels := extractShardLabels 0 shard.1 labels
  let files := files.write (path ++ "_labels.txt") shardLabels
  let files := saveLabels labelToStartId useUniversalLabel (path ++ "_mem.index") shardLabels files
  if shard.2 = 0 ∧ useUniversalLabel = true then
    files.copy (path ++ "_mem.index_universal_label.txt") (memIndexPath ++ "_universal_label.txt")
  else files

/-- An entry of a shard, with the global id. `none` is a medoid that the shard does not have. -/
def globalMedoid (idmap line : List Nat) : Option (Nat × Nat) :=
  (idmap[line.tail.getLastD 0]?).map (line.headD 0, ·)

/-- `global_label_to_medoids`, as it is written. -/
def mergeMedoids (shards : List (List Nat × Lines)) : Option Lines := do
  let entries ← shards.mapM fun (idmap, lines) => lines.mapM (globalMedoid idmap)
  let labels := (entries.flatten.map Prod.fst).dedup
  some (labels.map fun label =>
    label :: (entries.flatten.filter (·.1 = label)).map Prod.snd)

def mapFile (memIndexPath : String) (shard : Nat) : String :=
  shardPath memIndexPath shard ++ "_mem.index" ++ "_labels_to_medoids.txt"

/-- The entries of the shards where `merge_shards` looks for them. -/
def shardMedoids (memIndexPath : String) (idmaps : List (List Nat)) (files : TextFiles) :
    List (List Nat × Lines) :=
  idmaps.zipIdx.map fun (idmap, shard) => (idmap, files.read (mapFile memIndexPath shard))

def removeTempFiles (memIndexPath : String) (files : TextFiles) (shard : Nat) : TextFiles :=
  let path := shardPath memIndexPath shard
  (((files.remove (path ++ "_labels.txt")).remove (path ++ "_mem.index_labels.txt")).remove
    (path ++ "_mem.index_labels_to_medoids.txt")).remove (path ++ "_mem.index_universal_label.txt")

/-- With the ids of the points of each shard, unless the index is built in one shot. -/
def buildMergedVamanaIndex (idmaps : Option (List (List Nat)))
    (memIndexPath labelsToMedoidsFile : String) (labels : Lines) (files : TextFiles) :
    Option TextFiles :=
  match idmaps with
  | none =>
    let memFile := memIndexPath ++ "_labels_to_medoids.txt"
    let files := saveLabels labelToStartId useUniversalLabel memIndexPath labels files
    some (((files.remove labelsToMedoidsFile).copy memFile labelsToMedoidsFile).remove memFile)
  | some idmaps => do
    let files := idmaps.zipIdx.foldl
      (buildShard labelToStartId useUniversalLabel memIndexPath labels) files
    let merged ← mergeMedoids (shardMedoids memIndexPath idmaps files)
    some ((List.range idmaps.length).foldl (removeTempFiles memIndexPath)
      (files.write labelsToMedoidsFile merged))

/-- What `build_disk_index` does with the labels from the build of the graph on. -/
def buildDiskLabels (indexPrefix : String) (filterThreshold : Nat)
    (idmaps : Option (List (List Nat))) (labels : Lines) (files : TextFiles) :
    Option TextFiles := do
  let memIndexPath := indexPrefix ++ "_mem.index"
  let diskIndexPath := indexPrefix ++ "_disk.index"
  let files ← buildMergedVamanaIndex labelToStartId useUniversalLabel idmaps memIndexPath
    (diskIndexPath ++ "_labels_to_medoids.txt") labels files
  let files := (files.write (diskIndexPath ++ "_labels.txt") labels).remove
    (memIndexPath ++ "_labels.txt")
  let memUniversal := memIndexPath ++ "_universal_label.txt"
  let files := if useUniversalLabel then
      (files.copy memUniversal (diskIndexPath ++ "_universal_label.txt")).remove memUniversal
    else files
  let files := files.remove (indexPrefix ++ "_augmented_labels.txt")
  some (if filterThreshold = 0 then files.remove (indexPrefix ++ "_label_formatted.txt") else files)

end Build

section Entries

variable (labels : Lines) (useUniversalLabel : Bool)

/-- Every label that occurs has an entry, of nodes that carry it. -/
def EntersLabels (lines : Lines) : Prop :=
  ∀ label, (∃ line ∈ labels, label ∈ line) ∨ (useUniversalLabel = true ∧ label = 0) →
    ∃ medoids, label :: medoids ∈ lines ∧ medoids ≠ [] ∧ ∀ medoid ∈ medoids,
      ∃ line, labels[medoid]? = some line ∧
        (label ∈ line ∨ useUniversalLabel = true ∧ 0 ∈ line)

theorem entersLabels_nil_iff :
    EntersLabels labels useUniversalLabel [] ↔
      (∀ line ∈ labels, line = []) ∧ useUniversalLabel = false := by
  simp only [EntersLabels, List.not_mem_nil, false_and, exists_false]
  constructor
  · intro hnone
    refine ⟨fun line hline => List.eq_nil_iff_forall_not_mem.mpr fun label hlabel =>
      hnone label (.inl ⟨line, hline, hlabel⟩), ?_⟩
    exact Bool.eq_false_iff.mpr fun huniversal => hnone 0 (.inr ⟨huniversal, rfl⟩)
  · rintro ⟨hlabels, huniversal⟩ label (⟨line, hline, hlabel⟩ | ⟨hgiven, -⟩)
    · exact List.ne_nil_of_mem hlabel (hlabels line hline)
    · exact absurd hgiven (Bool.eq_false_iff.mp huniversal)

end Entries

/-- Where the build looks for the entries. -/
def medoidPaths (indexPrefix : String) : Option (List (List Nat)) → List String
  | none => [indexPrefix ++ "_mem.index" ++ "_labels_to_medoids.txt"]
  | some idmaps => (List.range idmaps.length).map (mapFile (indexPrefix ++ "_mem.index"))

/-- What stands, before the build, where the build looks for the entries. -/
def leftover (indexPrefix : String) (idmaps : Option (List (List Nat))) (files : TextFiles) :
    Option Lines :=
  let memIndexPath := indexPrefix ++ "_mem.index"
  match idmaps with
  | none => some (files.read (memIndexPath ++ "_labels_to_medoids.txt"))
  | some idmaps => mergeMedoids (shardMedoids memIndexPath idmaps files)

theorem append_ne {first second left right : String} (hleft : ¬ left.toList <:+ right.toList)
    (hright : ¬ right.toList <:+ left.toList) : first ++ left ≠ second ++ right := by
  intro hsame
  have hlists := congrArg String.toList hsame
  rw [String.toList_append, String.toList_append] at hlists
  have hsuffix : right.toList <:+ first.toList ++ left.toList := ⟨_, hlists.symm⟩
  exact (List.suffix_or_suffix_of_suffix (List.suffix_append _ _) hsuffix).elim hleft hright

section Kept

variable {first second left right : String} {files : TextFiles}

theorem write_other (hleft : ¬ left.toList <:+ right.toList)
    (hright : ¬ right.toList <:+ left.toList) (lines : Lines) :
    files.write (second ++ right) lines (first ++ left) = files (first ++ left) :=
  Function.update_of_ne (append_ne hleft hright) _ _

theorem remove_other (hleft : ¬ left.toList <:+ right.toList)
    (hright : ¬ right.toList <:+ left.toList) :
    files.remove (second ++ right) (first ++ left) = files (first ++ left) :=
  Function.update_of_ne (append_ne hleft hright) _ _

variable (labelToStartId : Lines → List (Nat × Nat)) (useUniversalLabel : Bool) (labels : Lines)

theorem saveLabels_kept (filename : String) :
    saveLabels labelToStartId useUniversalLabel filename labels files
      (first ++ "_labels_to_medoids.txt") = files (first ++ "_labels_to_medoids.txt") := by
  unfold saveLabels
  split_ifs <;> simp (disch := decide) only [write_other]

theorem buildShards_kept (memIndexPath : String) (shards : List (List Nat × Nat)) :
    shards.foldl (buildShard labelToStartId useUniversalLabel memIndexPath labels) files
      (first ++ "_labels_to_medoids.txt") = files (first ++ "_labels_to_medoids.txt") := by
  induction shards generalizing files with
  | nil => rfl
  | cons shard shards ih =>
    rw [List.foldl_cons, ih]
    unfold buildShard
    split_ifs <;> simp (disch := decide) only [TextFiles.copy, write_other, saveLabels_kept]

theorem removeTempFiles_kept (memIndexPath : String) (shards : List Nat) :
    shards.foldl (removeTempFiles memIndexPath) files
      (first ++ "_disk.index_labels_to_medoids.txt") =
        files (first ++ "_disk.index_labels_to_medoids.txt") := by
  induction shards generalizing files with
  | nil => rfl
  | cons shard shards ih =>
    rw [List.foldl_cons, ih]
    simp (disch := decide) only [removeTempFiles, remove_other]

end Kept

theorem path_join {first left right joined : String} (hjoined : left ++ right = joined) :
    first ++ left ++ right = first ++ joined := by
  rw [String.append_assoc, hjoined]

theorem shardMedoids_built (labelToStartId : Lines → List (Nat × Nat)) (useUniversalLabel : Bool)
    (memIndexPath : String) (labels : Lines) (idmaps : List (List Nat)) (files : TextFiles)
    (shards : List (List Nat × Nat)) :
    shardMedoids memIndexPath idmaps (shards.foldl
      (buildShard labelToStartId useUniversalLabel memIndexPath labels) files) =
        shardMedoids memIndexPath idmaps files := by
  refine List.map_congr_left fun shard _ => ?_
  dsimp only
  rw [TextFiles.read, mapFile, buildShards_kept, TextFiles.read]

theorem buildDiskLabels_entries (labelToStartId : Lines → List (Nat × Nat))
    (useUniversalLabel : Bool) (indexPrefix : String) (filterThreshold : Nat)
    (idmaps : Option (List (List Nat))) (labels : Lines) (files : TextFiles) :
    (buildDiskLabels labelToStartId useUniversalLabel indexPrefix filterThreshold idmaps labels
      files).map (· (indexPrefix ++ "_disk.index_labels_to_medoids.txt")) =
        (leftover indexPrefix idmaps files).map some := by
  have hdisk : indexPrefix ++ "_disk.index" ++ "_labels_to_medoids.txt" =
      indexPrefix ++ "_disk.index_labels_to_medoids.txt" := path_join (by decide)
  have hrest : ∀ built : TextFiles,
      buildMergedVamanaIndex labelToStartId useUniversalLabel idmaps (indexPrefix ++ "_mem.index")
        (indexPrefix ++ "_disk.index" ++ "_labels_to_medoids.txt") labels files = some built →
      (buildDiskLabels labelToStartId useUniversalLabel indexPrefix filterThreshold idmaps labels
        files).map (· (indexPrefix ++ "_disk.index_labels_to_medoids.txt")) =
          some (built (indexPrefix ++ "_disk.index_labels_to_medoids.txt")) := by
    intro built hbuilt
    simp only [buildDiskLabels, hbuilt, Option.bind_eq_bind, Option.bind_some, Option.map_some]
    split_ifs <;> simp (disch := decide) only [TextFiles.copy, write_other, remove_other]
  cases idmaps with
  | none =>
    have hmem : indexPrefix ++ "_mem.index" ++ "_labels_to_medoids.txt" =
        indexPrefix ++ "_mem.index_labels_to_medoids.txt" := path_join (by decide)
    have hsaved := @saveLabels_kept (indexPrefix ++ "_mem.index") files labelToStartId
      useUniversalLabel labels (indexPrefix ++ "_mem.index")
    rw [hrest _ rfl, leftover, hdisk, hmem]
    rw [hmem] at hsaved
    simp (disch := decide) only [remove_other, TextFiles.copy, TextFiles.write,
      Function.update_self, TextFiles.read, hsaved, Option.map_some]
  | some idmaps =>
    cases hmerged : mergeMedoids (shardMedoids (indexPrefix ++ "_mem.index") idmaps files) with
    | none =>
      simp [buildDiskLabels, buildMergedVamanaIndex, leftover, shardMedoids_built, hmerged]
    | some merged =>
      refine (hrest _ (by
        simp only [buildMergedVamanaIndex, shardMedoids_built, hmerged, Option.bind_eq_bind,
          Option.bind_some]
        rfl)).trans ?_
      rw [leftover, hmerged, hdisk, removeTempFiles_kept]
      simp only [TextFiles.write, Function.update_self, Option.map_some]

theorem mergeMedoids_nil {shards : List (List Nat × Lines)}
    (hnone : ∀ shard ∈ shards, shard.2 = []) : mergeMedoids shards = some [] := by
  have hentries : shards.mapM (fun (idmap, lines) => lines.mapM (globalMedoid idmap)) =
      some (List.replicate shards.length []) := by
    induction shards with
    | nil => rfl
    | cons shard shards ih =>
      obtain ⟨idmap, lines⟩ := shard
      obtain ⟨rfl, hrest⟩ := List.forall_mem_cons.mp hnone
      rw [List.mapM_cons, ih hrest]
      rfl
  simp [mergeMedoids, hentries]

theorem leftover_nil {indexPrefix : String} {idmaps : Option (List (List Nat))} {files : TextFiles}
    (hnone : ∀ path ∈ medoidPaths indexPrefix idmaps, files path = none) :
    leftover indexPrefix idmaps files = some [] := by
  cases idmaps with
  | none => simp [leftover, TextFiles.read, hnone _ (List.mem_singleton_self _)]
  | some idmaps =>
    refine mergeMedoids_nil fun shard hshard => ?_
    obtain ⟨⟨idmap, index⟩, hindex, rfl⟩ := List.mem_map.mp hshard
    have hpath := hnone _ (List.mem_map_of_mem
      (List.mem_range.mpr (List.mem_zipIdx' hindex).1))
    simp [TextFiles.read, hpath]

section Main

variable (labelToStartId : Lines → List (Nat × Nat)) (useUniversalLabel : Bool)
  (indexPrefix : String) (filterThreshold : Nat) (idmaps : Option (List (List Nat)))
  (labels : Lines) (files : TextFiles)

/-- The file beside the finished index has the entries. -/
def HasEntries : Prop :=
  ∃ lines, (buildDiskLabels labelToStartId useUniversalLabel indexPrefix filterThreshold idmaps
      labels files).map (· (indexPrefix ++ "_disk.index_labels_to_medoids.txt")) =
        some (some lines) ∧
      EntersLabels labels useUniversalLabel lines

/-- The file has the entries exactly if those left over from before do, which without such files
means that there are no labels. -/
theorem hasEntries_iff :
    (HasEntries labelToStartId useUniversalLabel indexPrefix filterThreshold idmaps labels files ↔
      ∃ lines, leftover indexPrefix idmaps files = some lines ∧
        EntersLabels labels useUniversalLabel lines) ∧
    ((∀ path ∈ medoidPaths indexPrefix idmaps, files path = none) →
      (HasEntries labelToStartId useUniversalLabel indexPrefix filterThreshold idmaps labels
        files ↔ (∀ line ∈ labels, line = []) ∧ useUniversalLabel = false)) := by
  have hentries : HasEntries labelToStartId useUniversalLabel indexPrefix filterThreshold idmaps
      labels files ↔ ∃ lines, leftover indexPrefix idmaps files = some lines ∧
        EntersLabels labels useUniversalLabel lines := by
    simp [HasEntries, buildDiskLabels_entries]
  refine ⟨hentries, fun hnone => hentries.trans ?_⟩
  rw [leftover_nil hnone, ← entersLabels_nil_iff]
  simp

end Main

theorem hasEntries_iff_noFiles :
    HasEntries (fun _ => []) false "index" 0 none [[]] (fun _ => none) ↔
      (∀ line ∈ [([] : List Nat)], line = []) ∧ false = false :=
  (hasEntries_iff _ _ _ _ _ _ _).2 fun _ _ => rfl

/-- One point with one label. -/
theorem not_hasEntries :
    ¬ HasEntries (fun _ => [(1, 0)]) false "index" 0 none [[1]] (fun _ => none) := by
  rintro ⟨lines, hlines, henters⟩
  rw [buildDiskLabels_entries] at hlines
  obtain rfl : [] = lines := by simpa [leftover, TextFiles.read] using hlines
  obtain ⟨_, hentry, -⟩ := henters 1 (.inl ⟨[1], by simp, by simp⟩)
  cases hentry

end SkipCell.DiskIndex

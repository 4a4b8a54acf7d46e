import SkipCell.IoIndex.VectorPages

/-! # What the page writer keeps

Every vector that was appended lies inside one page, behind the vectors before it,
and is found at its location in all that was written so far and the page that is
being filled.
-/

namespace SkipCell.IoIndex

open Foundation Sidecar

structure PlacedSlot where
  node : Nat
  page : Nat
  offset : Nat

namespace PlacedSlot

def start (slot : PlacedSlot) : Nat := slot.page * kIoVectorPageSize + slot.offset

def location (slot : PlacedSlot) : VectorLocation := ⟨.ofNat slot.page, .ofNat slot.offset⟩

end PlacedSlot

namespace PageWriter

/-- The file as it would be if the current page were written. -/
def contents (writer : PageWriter) : List UInt8 := writer.vectors ++ writer.outputPage

/-- Where the next vector goes. -/
def cursor (vectorBytes : Nat) (writer : PageWriter) : Nat :=
  writer.pagesWritten * kIoVectorPageSize + writer.outputSlot * vectorBytes

end PageWriter

@[simp]
theorem PageWriter.locations_flushPage (writer : PageWriter) :
    writer.flushPage.locations = writer.locations := by
  unfold flushPage
  split
  all_goals rfl

/-- The slots hold the vectors of their nodes, one behind the other. -/
structure Holds (vectorBytes vectorsPerPage : Nat) (vectors : Nat → List UInt8)
    (writer : PageWriter) (slots : List PlacedSlot) : Prop where
  fileLength : writer.vectors.length = writer.pagesWritten * kIoVectorPageSize
  pageLength : writer.outputPage.length = kIoVectorPageSize
  slotLe : writer.outputSlot ≤ vectorsPerPage
  checksum : writer.vectorChecksum = fnvBytes fnvOffsetBasis writer.vectors
  nodes : (slots.map PlacedSlot.node).Nodup
  ordered : slots.Pairwise fun first second => first.start + vectorBytes ≤ second.start
  located : ∀ slot ∈ slots, writer.locations[slot.node]? = some slot.location
  inside : ∀ slot ∈ slots, slot.offset + vectorBytes ≤ kIoVectorPageSize ∧
    slot.start + vectorBytes ≤ writer.cursor vectorBytes
  stored : ∀ slot ∈ slots, subspan writer.contents slot.start vectorBytes = vectors slot.node

namespace Holds

variable {vectorBytes vectorsPerPage : Nat} {vectors : Nat → List UInt8} {writer : PageWriter}
  {slots : List PlacedSlot}

theorem start (vectorBytes vectorsPerPage : Nat) (vectors : Nat → List UInt8)
    (locations : List VectorLocation) :
    Holds vectorBytes vectorsPerPage vectors { locations } [] := by
  refine ⟨(Nat.zero_mul _).symm, List.length_replicate .., Nat.zero_le _, rfl, .nil, .nil, ?_, ?_,
    ?_⟩
  all_goals exact fun slot hslot => absurd hslot List.not_mem_nil

theorem length_contents (hholds : Holds vectorBytes vectorsPerPage vectors writer slots) :
    writer.contents.length = writer.pagesWritten * kIoVectorPageSize + kIoVectorPageSize := by
  rw [PageWriter.contents, List.length_append, hholds.fileLength, hholds.pageLength]

section

variable (hholds : Holds vectorBytes vectorsPerPage vectors writer slots)
  (hfits : vectorsPerPage * vectorBytes ≤ kIoVectorPageSize)
include hholds hfits

theorem cursor_le :
    writer.cursor vectorBytes ≤ writer.contents.length := by
  rw [hholds.length_contents, PageWriter.cursor]
  have hslots := Nat.mul_le_mul_right vectorBytes hholds.slotLe
  omega

theorem writePage {outputPage : List UInt8} (hpage : outputPage.length = kIoVectorPageSize) :
    Holds vectorBytes vectorsPerPage vectors
      { writer.writePage with outputPage, outputSlot := 0 } slots where
  fileLength := by
    change writer.contents.length = (writer.pagesWritten + 1) * kIoVectorPageSize
    rw [hholds.length_contents, Nat.succ_mul]
  pageLength := hpage
  slotLe := Nat.zero_le _
  checksum := by
    change fnvBytes writer.vectorChecksum writer.outputPage =
      fnvBytes fnvOffsetBasis (writer.vectors ++ writer.outputPage)
    rw [fnvBytes_append, hholds.checksum]
  nodes := hholds.nodes
  ordered := hholds.ordered
  located := hholds.located
  inside := by
    intro slot hslot
    obtain ⟨hoffset, hstart⟩ := hholds.inside slot hslot
    refine ⟨hoffset, hstart.trans ?_⟩
    have hcursor := hholds.cursor_le hfits
    rw [hholds.length_contents] at hcursor
    change writer.cursor vectorBytes ≤ (writer.pagesWritten + 1) * kIoVectorPageSize + 0 * _
    rw [Nat.succ_mul]
    omega
  stored := by
    intro slot hslot
    rw [← hholds.stored slot hslot]
    change subspan (writer.contents ++ outputPage) _ _ = _
    apply subspan_append_left
    exact (hholds.inside slot hslot).2.trans (hholds.cursor_le hfits)

theorem flushPage :
    Holds vectorBytes vectorsPerPage vectors writer.flushPage slots ∧
      writer.flushPage.outputSlot = 0 ∧ writer.pagesWritten ≤ writer.flushPage.pagesWritten := by
  unfold PageWriter.flushPage
  split
  next hempty => exact ⟨hholds, hempty, Nat.le_refl _⟩
  next => exact ⟨hholds.writePage hfits (List.length_replicate ..), rfl, Nat.le_succ _⟩

end

theorem appendPadding {count : Nat} {next : PageWriter}
    (hholds : Holds vectorBytes vectorsPerPage vectors writer slots)
    (hfits : vectorsPerPage * vectorBytes ≤ kIoVectorPageSize)
    (happend : PageWriter.appendPadding count writer = .ok next) :
    Holds vectorBytes vectorsPerPage vectors next slots ∧
      next.outputSlot = writer.outputSlot ∧
      next.pagesWritten = writer.pagesWritten + count ∧
      next.locations = writer.locations := by
  induction count generalizing writer with
  | zero =>
    obtain rfl := Except.ok.inj happend
    exact ⟨hholds, rfl, rfl, rfl⟩
  | succ count ih =>
    obtain ⟨padded, hpadding, hrest⟩ := bind_ok.mp happend
    unfold PageWriter.appendPaddingPage at hpadding
    split at hpadding
    next => cases hpadding
    next hempty =>
      obtain rfl := Except.ok.inj hpadding
      have hslot : writer.outputSlot = 0 := by simpa using hempty
      have hwritten : Holds vectorBytes vectorsPerPage vectors writer.writePage slots := by
        have hwritten := hholds.writePage hfits hholds.pageLength
        rwa [← hslot] at hwritten
      obtain ⟨hnext, hsame, hpages, hlocations⟩ := ih hwritten hrest
      refine ⟨hnext, hsame, ?_, hlocations⟩
      rw [hpages]
      change writer.pagesWritten + 1 + count = _
      omega

def nextSlot (vectorBytes : Nat) (writer : PageWriter) (node : Nat) : PlacedSlot :=
  ⟨node, writer.pagesWritten, writer.outputSlot * vectorBytes⟩

section

variable (hholds : Holds vectorBytes vectorsPerPage vectors writer slots)
  (hfits : vectorsPerPage * vectorBytes ≤ kIoVectorPageSize)
  (hroom : writer.outputSlot < vectorsPerPage) {node : Nat} (hnode : node < writer.locations.length)
  (hnew : node ∉ slots.map PlacedSlot.node) (hvector : (vectors node).length = vectorBytes)
include hholds hfits hroom hnode hnew hvector

theorem place :
    Holds vectorBytes vectorsPerPage vectors
      { writer with
        locations := writer.locations.set node (nextSlot vectorBytes writer node).location
        outputPage := patch writer.outputPage (writer.outputSlot * vectorBytes) (vectors node)
        outputSlot := writer.outputSlot + 1 }
      (slots ++ [nextSlot vectorBytes writer node]) := by
  have hend : writer.outputSlot * vectorBytes + vectorBytes ≤ kIoVectorPageSize := by
    have hslots := Nat.mul_le_mul_right vectorBytes (Nat.succ_le_of_lt hroom)
    rw [Nat.succ_mul] at hslots
    omega
  have hpatched : writer.outputSlot * vectorBytes + (vectors node).length ≤
      writer.outputPage.length := by
    rw [hvector, hholds.pageLength]
    exact hend
  have hstart : (nextSlot vectorBytes writer node).start = writer.cursor vectorBytes := rfl
  constructor
  case fileLength => exact hholds.fileLength
  case pageLength =>
    rw [length_patch hpatched]
    exact hholds.pageLength
  case slotLe => exact hroom
  case checksum => exact hholds.checksum
  case nodes =>
    rw [List.map_append]
    exact hholds.nodes.append (List.nodup_singleton _) (List.disjoint_singleton.mpr hnew)
  case ordered =>
    apply List.pairwise_append.mpr
    refine ⟨hholds.ordered, List.pairwise_singleton _ _, ?_⟩
    intro slot hslot other hother
    obtain rfl := List.mem_singleton.mp hother
    exact (hholds.inside slot hslot).2
  case located =>
    intro slot hslot
    rcases List.mem_append.mp hslot with hold | hlast
    · have hother : node ≠ slot.node := by
        rintro rfl
        exact hnew (List.mem_map_of_mem hold)
      rw [List.getElem?_set_ne hother]
      exact hholds.located slot hold
    · obtain rfl := List.mem_singleton.mp hlast
      exact List.getElem?_set_self hnode
  case inside =>
    intro slot hslot
    change _ ∧ slot.start + vectorBytes ≤
      writer.pagesWritten * kIoVectorPageSize + (writer.outputSlot + 1) * vectorBytes
    rw [Nat.succ_mul]
    rcases List.mem_append.mp hslot with hold | hlast
    · obtain ⟨hoffset, hbefore⟩ := hholds.inside slot hold
      rw [PageWriter.cursor] at hbefore
      exact ⟨hoffset, by omega⟩
    · obtain rfl := List.mem_singleton.mp hlast
      refine ⟨hend, ?_⟩
      rw [hstart, PageWriter.cursor]
      omega
  case stored =>
    intro slot hslot
    change subspan (writer.vectors ++ patch writer.outputPage _ _) slot.start vectorBytes = _
    rcases List.mem_append.mp hslot with hold | hlast
    · obtain ⟨-, hbefore⟩ := hholds.inside slot hold
      rw [← hholds.stored slot hold]
      apply subspan_append_patch
      · rw [hholds.fileLength]
        exact hbefore
      · omega
    · obtain rfl := List.mem_singleton.mp hlast
      rw [hstart, PageWriter.cursor, ← hholds.fileLength, subspan_append_right]
      have hself := subspan_patch_self hpatched
      rwa [hvector] at hself

theorem appendVector {next : PageWriter}
    (hnext : next = writer.appendVector vectorBytes vectorsPerPage node (vectors node)) :
    Holds vectorBytes vectorsPerPage vectors next (slots ++ [nextSlot vectorBytes writer node]) ∧
      next.outputSlot = (writer.outputSlot + 1) % vectorsPerPage ∧
      writer.pagesWritten ≤ next.pagesWritten ∧
      next.locations.length = writer.locations.length := by
  have hplaced := hholds.place hfits hroom hnode hnew hvector
  unfold PageWriter.appendVector at hnext
  simp only at hnext
  split at hnext
  next hfull =>
    obtain ⟨hflushed, hslot, hpages⟩ := hplaced.flushPage hfits
    subst hnext
    refine ⟨hflushed, ?_, hpages, ?_⟩
    · have hwrap : (writer.outputSlot + 1) % vectorsPerPage = 0 := by rw [hfull, Nat.mod_self]
      rw [hwrap]
      exact hslot
    · rw [PageWriter.locations_flushPage]
      exact List.length_set
  next hpartial =>
    subst hnext
    refine ⟨hplaced, ?_, Nat.le_refl _, List.length_set⟩
    rw [Nat.mod_eq_of_lt]
    exact Nat.lt_of_le_of_ne hroom hpartial

end

end Holds

/-- The vectors of the nodes were appended, and got the slots `added`. -/
structure Appended (vectorBytes vectorsPerPage : Nat) (vectors : Nat → List UInt8)
    (slots : List PlacedSlot) (nodes : List Nat) (writer next : PageWriter)
    (added : List PlacedSlot) : Prop where
  holds : Holds vectorBytes vectorsPerPage vectors next (slots ++ added)
  same : added.map PlacedSlot.node = nodes
  slot : next.outputSlot = (writer.outputSlot + nodes.length) % vectorsPerPage
  offsets : ∀ (index : Nat) (slot : PlacedSlot), added[index]? = some slot →
    slot.offset = (writer.outputSlot + index) % vectorsPerPage * vectorBytes
  pages : ∀ slot ∈ added, writer.pagesWritten ≤ slot.page
  grows : writer.pagesWritten ≤ next.pagesWritten
  length : next.locations.length = writer.locations.length

theorem appendNodes (nodes : List Nat) {vectorBytes vectorsPerPage : Nat}
    {vectors : Nat → List UInt8} (hfits : vectorsPerPage * vectorBytes ≤ kIoVectorPageSize)
    {writer : PageWriter} {slots : List PlacedSlot}
    (hholds : Holds vectorBytes vectorsPerPage vectors writer slots)
    (hroom : writer.outputSlot < vectorsPerPage)
    (hnodup : (slots.map PlacedSlot.node ++ nodes).Nodup)
    (hbound : ∀ node ∈ nodes, node < writer.locations.length)
    (hwidth : ∀ node ∈ nodes, (vectors node).length = vectorBytes) :
    ∃ added, Appended vectorBytes vectorsPerPage vectors slots nodes writer
      (nodes.foldl (fun writer node =>
        writer.appendVector vectorBytes vectorsPerPage node (vectors node)) writer) added := by
  induction nodes generalizing writer slots with
  | nil =>
    refine ⟨[], ?_, rfl, ?_, nofun, nofun, Nat.le_refl _, rfl⟩
    · rw [List.append_nil]
      exact hholds
    · exact (Nat.mod_eq_of_lt hroom).symm
  | cons node nodes ih =>
    obtain ⟨hnode, hrest⟩ := List.forall_mem_cons.mp hbound
    obtain ⟨hfirst, hothers⟩ := List.forall_mem_cons.mp hwidth
    have hnew : node ∉ slots.map PlacedSlot.node := by
      intro hold
      exact (List.nodup_append.mp hnodup).2.2 node hold node List.mem_cons_self rfl
    obtain ⟨hnext, hslot, hpages, hlength⟩ :=
      hholds.appendVector hfits hroom hnode hnew hfirst rfl
    have hnextRoom : (writer.appendVector vectorBytes vectorsPerPage node
        (vectors node)).outputSlot < vectorsPerPage := by
      rw [hslot]
      exact Nat.mod_lt _ (Nat.zero_lt_of_lt hroom)
    have hremaining : ((slots ++ [Holds.nextSlot vectorBytes writer node]).map PlacedSlot.node ++
        nodes).Nodup := by
      rw [List.map_append, List.append_assoc]
      exact hnodup
    obtain ⟨added, happended⟩ := ih hnext hnextRoom hremaining (by rwa [hlength]) hothers
    refine ⟨Holds.nextSlot vectorBytes writer node :: added, ?_, ?_, ?_, ?_, ?_, ?_, ?_⟩
    · have hall := happended.holds
      rwa [List.append_assoc] at hall
    · rw [List.map_cons, happended.same]
      rfl
    · refine happended.slot.trans ?_
      rw [hslot, Nat.mod_add_mod, List.length_cons, Nat.add_assoc, Nat.add_comm 1]
    · intro index slot hadded
      cases index with
      | zero =>
        obtain rfl := Option.some.inj hadded
        rw [Nat.add_zero, Nat.mod_eq_of_lt hroom]
        rfl
      | succ index =>
        rw [happended.offsets index slot hadded, hslot, Nat.mod_add_mod, Nat.add_assoc,
          Nat.add_comm 1]
    · intro slot hadded
      rcases List.mem_cons.mp hadded with rfl | hlater
      · exact Nat.le_refl _
      · exact hpages.trans (happended.pages slot hlater)
    · exact hpages.trans happended.grows
    · exact happended.length.trans hlength

end SkipCell.IoIndex

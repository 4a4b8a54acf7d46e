import SkipCell.Foundation.ReaderPrefix
import SkipCell.IoIndex.BuildLoad
import SkipCell.IoIndex.TopologyCache

/-! # Lists read page by page

An artifact that both modes accept has the same lists in both. The paged mode finds a
list through the topology cache, whatever was read before, unless the list reaches
into the last page of the file and the file does not fill it.
-/

namespace SkipCell.IoIndex

open Foundation Sidecar

namespace LoadedIndex

/-- `neighbors` with the cache that the paged mode reads through. -/
def neighborsThrough (index : LoadedIndex) (cache : TopologyCache) (node : Nat) :
    TopologyCache × Except Error (List UInt32) :=
  match index.adjacency with
  | .whole _ => (cache, index.neighbors node)
  | .paged file adjacencyFileOffset =>
    match element .outOfBounds index.neighborOffsets node,
        element .outOfBounds index.neighborOffsets (node + 1) with
    | .error error, _ => (cache, .error error)
    | .ok _, .error error => (cache, .error error)
    | .ok first, .ok last =>
      let degree := last.toNat - first.toNat
      match cache.copyPages file (adjacencyFileOffset + first.toNat * 4) (degree * 4) with
      | (cache, .error error) => (cache, .error error)
      | (cache, .ok bytes) =>
        (cache, Prod.fst <$> readMany (readU32 "adjacency target") degree bytes)

/-- The caches that calls of `neighbors` leave, failed ones included. -/
inductive Reached (index : LoadedIndex) (cachePages : Nat) : TopologyCache → Prop
  | opened : Reached index cachePages (.init cachePages)
  | read {cache : TopologyCache} (node : Nat) : Reached index cachePages cache →
      Reached index cachePages (index.neighborsThrough cache node).1

def ListInWholePages (index : LoadedIndex) (node : Nat) : Prop :=
  ∀ first last file offset, index.neighborOffsets[node]? = some first →
    index.neighborOffsets[node + 1]? = some last → index.adjacency = .paged file offset →
    first < last → pageEnd (offset + last.toNat * 4) ≤ file.length

end LoadedIndex

section Header

theorem prefigures_u32 (description : String) :
    Prefigures (readU32 description) (readU32 description) :=
  (Prefigures.word _ _).map _

theorem prefigures_u64 (description : String) :
    Prefigures (readU64 description) (readU64 description) :=
  (Prefigures.word _ _).map _

theorem prefigures_reject {first second : Prop} [Decidable first] [Decidable second]
    (message : String) (himp : second → first) :
    Prefigures (rejectRead first message) (rejectRead second message) := by
  intro bytes value rest hread
  unfold rejectRead at hread ⊢
  split at hread
  · cases hread
  · next hfirst =>
      rw [if_neg fun hsecond => hfirst (himp hsecond)]
      exact Prefigures.pure value bytes value rest hread

theorem prefigures_section (offset size checksum : String) :
    Prefigures (readSection offset size checksum) (readSection offset size checksum) :=
  (prefigures_u64 _).bind fun _ => (prefigures_u64 _).bind fun _ =>
    (prefigures_u64 _).bind fun _ => .pure _

theorem prefigures_fingerprint (size checksum : String) :
    Prefigures (readFingerprint size checksum) (readFingerprint size checksum) :=
  (prefigures_u64 _).bind fun _ => (prefigures_u64 _).bind fun _ => .pure _

theorem prefigures_gatewayFields (version : UInt32) :
    Prefigures (readGatewayFields version) (readGatewayFields version) := by
  unfold readGatewayFields
  split
  · exact (prefigures_fingerprint _ _).bind fun _ => (prefigures_u64 _).bind fun _ =>
      (prefigures_section _ _ _).bind fun _ => .pure _
  · exact .pure _

theorem prefigures_topologyHeader {small large : Nat} (hle : small ≤ large) :
    Prefigures (readTopologyHeader small) (readTopologyHeader large) := by
  unfold readTopologyHeader
  refine (prefigures_u64 _).bind fun _ => (prefigures_reject _ id).bind fun _ =>
    (prefigures_u32 _).bind fun _ => (prefigures_reject _ id).bind fun _ =>
    (prefigures_u32 _).bind fun _ => (prefigures_reject _ id).bind fun _ =>
    (prefigures_u32 _).bind fun _ => (prefigures_reject _ ?_).bind fun _ =>
    (prefigures_u32 _).bind fun _ => (prefigures_reject _ id).bind fun _ =>
    (prefigures_u64 _).bind fun _ => (prefigures_u64 _).bind fun _ =>
    (prefigures_u32 _).bind fun _ => (prefigures_u32 _).bind fun _ =>
    (prefigures_u32 _).bind fun _ => (prefigures_u64 _).bind fun _ =>
    (prefigures_u64 _).bind fun _ => (prefigures_u64 _).bind fun _ =>
    (prefigures_fingerprint _ _).bind fun _ => (prefigures_fingerprint _ _).bind fun _ =>
    (prefigures_section _ _ _).bind fun _ => (prefigures_section _ _ _).bind fun _ =>
    (prefigures_section _ _ _).bind fun _ => (prefigures_section _ _ _).bind fun _ =>
    (prefigures_section _ _ _).bind fun _ => (prefigures_gatewayFields _).bind fun _ => .pure _
  rintro (hbytes | hshort)
  · exact .inl hbytes
  · exact .inr (Nat.lt_of_le_of_lt hle hshort)

theorem yields_reject {α : Type} {condition : Prop} [Decidable condition] {message : String}
    {next : Unit → Reader α} {property : α → Prop}
    (hnext : ¬ condition → ∀ result, Yields (next result) property) :
    Yields (rejectRead condition message >>= next) property := by
  intro bytes value rest hread
  obtain ⟨result, middle, hreject, hrest⟩ := bind_eq_ok hread
  unfold rejectRead at hreject
  split at hreject
  · cases hreject
  · next hfits => exact hnext hfits result _ _ _ hrest

theorem yields_headerBytes (size : Nat) :
    Yields (readTopologyHeader size) fun header => header.headerBytes.toNat ≤ size := by
  unfold readTopologyHeader
  refine .bind fun _ => .bind fun _ => .bind fun _ => .bind fun _ => .bind fun _ => .bind fun _ =>
    .bind fun headerBytes => yields_reject fun hfits _ => ?_
  have hsize : headerBytes.toNat ≤ size := Nat.not_lt.mp fun hlong => hfits (.inr hlong)
  exact .bind fun _ => .bind fun _ => .bind fun _ => .bind fun _ => .bind fun _ => .bind fun _ =>
    .bind fun _ => .bind fun _ => .bind fun _ => .bind fun _ => .bind fun _ => .bind fun _ =>
    .bind fun _ => .bind fun _ => .bind fun _ => .bind fun _ => .bind fun _ => .bind fun _ =>
    .pure hsize

theorem parseHeader_take {topology : List UInt8} {header : TopologyHeader}
    (hlong : kTopologyHeaderBytes ≤ topology.length)
    (hparse : parseHeader (topology.take kTopologyHeaderBytes) = .ok header) :
    parseHeader topology = .ok header := by
  simp only [parseHeader, bind_ok, reject_ok, exists_const] at hparse ⊢
  obtain ⟨-, ⟨found, rest⟩, hread, hzero, hresult⟩ := hparse
  obtain rfl := Except.ok.inj hresult
  have hlength : (topology.take kTopologyHeaderBytes).length = kTopologyHeaderBytes :=
    List.length_take_of_le hlong
  rw [hlength] at hread hzero
  have hbytes := yields_headerBytes _ _ _ _ hread
  obtain ⟨taken, hsplit, hreads⟩ := prefigures_topologyHeader hlong _ _ _ hread
  have hwhole := hreads (rest ++ topology.drop kTopologyHeaderBytes)
  rw [← List.append_assoc, ← hsplit, List.take_append_drop] at hwhole
  have htaken : taken.length = kTopologyHeaderBytes - rest.length := by
    have hcount := congrArg List.length hsplit
    rw [hlength, List.length_append] at hcount
    omega
  have hcursor : topology.length - (rest ++ topology.drop kTopologyHeaderBytes).length =
      kTopologyHeaderBytes - rest.length := by
    rw [List.length_append, List.length_drop]
    omega
  refine ⟨?_, _, hwhole, ?_, rfl⟩
  · have hv4 : kTopologyV4HeaderBytes ≤ kTopologyHeaderBytes := by decide
    omega
  · rw [hcursor]
    rwa [List.take_take, Nat.min_eq_left hbytes] at hzero

theorem loadHeader_alike {topology : List UInt8} {whole paged : TopologyHeader} {cachePages : Nat}
    (hwhole : loadHeader topology false 0 = .ok whole)
    (hpaged : loadHeader topology true cachePages = .ok paged) :
    paged = whole ∧ 0 < cachePages := by
  simp only [loadHeader, Bool.false_eq_true, if_false, if_true, bind_ok, reject_ok,
    exists_const, Except.ok.injEq, true_and, not_or, not_lt] at hwhole hpaged
  obtain ⟨found, hfound, -, -, rfl⟩ := hwhole
  obtain ⟨hlong, other, hother, ⟨hpositive, -⟩, -, rfl⟩ := hpaged
  exact ⟨Except.ok.inj ((parseHeader_take hlong hother).symm.trans hfound),
    Nat.pos_of_ne_zero hpositive⟩

end Header

section Loading

variable {disk topology vectors : List UInt8} {topologyOnly paged : Bool} {cachePages : Nat}
  {header : TopologyHeader} {loaded : LoadedIndex}

structure Placed (topology : List UInt8) (header : TopologyHeader) (loaded : LoadedIndex) :
    Prop where
  offsets : ∃ rest, readMany (readU64 "neighbor offset") (header.pointCount.toNat + 1)
    (header.offsets.read topology) = .ok (loaded.neighborOffsets, rest)
  checked : checkNeighborOffsets header loaded.neighborOffsets = .ok ()
  bytes : header.adjacency.bytes.toNat = header.edgeCount.toNat * 4
  inside : header.adjacency.offset.toNat + header.adjacency.bytes.toNat ≤ topology.length
  small : topology.length < 2 ^ 64

theorem placed_of_sections {offsets : List UInt64} {rest : List UInt8}
    (hsections : checkSections header topology.length = .ok ()) (hraw : header.encoding = .rawU32)
    (hoffsets : readMany (readU64 "neighbor offset") (header.pointCount.toNat + 1)
      (header.offsets.read topology) = .ok (offsets, rest))
    (hchecked : checkNeighborOffsets header offsets = .ok ())
    (hloaded : loaded.neighborOffsets = offsets) : Placed topology header loaded := by
  simp only [checkSections, bind_ok, addChecked_eq_ok, multiplyChecked_eq_ok] at hsections
  obtain ⟨_, -, _, -, _, ⟨-, rfl⟩, _, -, _, -, _, -, _, -, _, ⟨-, rfl⟩, _, ⟨-, rfl⟩, _, ⟨-, rfl⟩, _,
    ⟨-, rfl⟩, _, ⟨hlast, rfl⟩, hrest⟩ := hsections
  split at hrest
  all_goals
    simp only [bind_ok, reject_ok, addChecked_eq_ok, Except.ok.injEq, exists_eq_left',
      not_or, not_and, not_not, ne_eq] at hrest
  · obtain ⟨-, -, -, hbytes, hdirectory, -, hcell, -, hprefetch, -, -, hsize⟩ := hrest
    exact ⟨⟨rest, hloaded ▸ hoffsets⟩, hloaded ▸ hchecked, hbytes hraw, by omega, by omega⟩
  · obtain ⟨_, ⟨hlimit, rfl⟩, -, -, -, hbytes, hdirectory, -, hcell, -, hprefetch, -, -, hsize⟩ :=
      hrest
    exact ⟨⟨rest, hloaded ▸ hoffsets⟩, hloaded ▸ hchecked, hbytes hraw, by omega, by omega⟩

theorem paged_of_load (hload : load disk topology vectors topologyOnly true cachePages =
      .ok loaded) :
    ∃ header, loadHeader topology true cachePages = .ok header ∧ Placed topology header loaded ∧
      loaded.adjacency = .paged topology header.adjacency.offset.toNat := by
  simp only [load, if_true, bind_ok, reject_ok, exists_const, not_not,
    Except.ok.injEq, exists_eq_left'] at hload
  obtain ⟨header, hheader, _, -, _, hsections, _, -, _, -, _, -, ⟨offsets, rest⟩, hoffsets, -, hraw,
    _, hchecked, locations, -, ranges, -, pages, -, hints, -, rfl⟩ := hload
  exact ⟨header, hheader, placed_of_sections hsections hraw hoffsets hchecked rfl, rfl⟩

theorem whole_of_load (hload : load disk topology vectors topologyOnly false cachePages =
      .ok loaded) :
    ∃ header adjacency, loadHeader topology false cachePages = .ok header ∧
      Placed topology header loaded ∧
      readAdjacency header (header.adjacency.read topology) = .ok adjacency ∧
      loaded.adjacency = .whole adjacency := by
  simp only [load, Bool.false_eq_true, if_false, bind_ok, reject_ok, exists_const,
    not_not, Except.ok.injEq] at hload
  obtain ⟨header, hheader, _, -, _, hsections, _, -, _, -, _, -, ⟨offsets, rest⟩, hoffsets, -, hraw,
    _, hchecked, adjacency, hadjacency, locations, -, ranges, -, pages, -, hints, -, rfl⟩ := hload
  cases hread : readAdjacency header (header.adjacency.read topology) with
  | error failure =>
    rw [hread] at hadjacency
    cases hadjacency
  | ok found =>
    rw [hread] at hadjacency
    exact ⟨header, found, hheader, placed_of_sections hsections hraw hoffsets hchecked rfl, hread,
      (Except.ok.inj hadjacency).symm⟩

theorem Placed.ordered (hplaced : Placed topology header loaded) {node : Nat}
    {first last : UInt64} (hfirst : loaded.neighborOffsets[node]? = some first)
    (hlast : loaded.neighborOffsets[node + 1]? = some last) :
    first.toNat ≤ last.toNat ∧ last.toNat ≤ header.edgeCount.toNat := by
  have hchecked := hplaced.checked
  simp only [checkNeighborOffsets, bind_ok, reject_ok, exists_const, not_not]
    at hchecked
  obtain ⟨hend, hpairs⟩ := hchecked
  have hstep : ∀ (position : Nat) (value next : UInt64),
      loaded.neighborOffsets[position]? = some value →
      loaded.neighborOffsets[position + 1]? = some next → value.toNat ≤ next.toNat := by
    intro position value next hvalue hnext
    refine Nat.not_lt.mp fun hlt => hpairs ⟨(value, next), ?_, .inl (UInt64.lt_iff_toNat_lt.mpr hlt)⟩
    refine List.mem_of_getElem? ((List.getElem?_zip_eq_some (i := position)).mpr ⟨hvalue, ?_⟩)
    rwa [List.getElem?_tail]
  have hrun : ∀ (distance position : Nat) (value next : UInt64),
      loaded.neighborOffsets[position]? = some value →
      loaded.neighborOffsets[position + distance]? = some next → value.toNat ≤ next.toNat := by
    intro distance
    induction distance with
    | zero =>
      intro position value next hvalue hnext
      rw [Option.some.inj (hvalue.symm.trans hnext)]
    | succ distance ih =>
      intro position value next hvalue hnext
      have hinside := (List.getElem_of_getElem? hnext).1
      have hmiddle := List.getElem?_eq_getElem (show position + distance <
        loaded.neighborOffsets.length by omega)
      exact (ih position value _ hvalue hmiddle).trans (hstep _ _ _ hmiddle hnext)
  refine ⟨hstep node first last hfirst hlast, ?_⟩
  have hinside := (List.getElem_of_getElem? hlast).1
  rw [List.getLast?_eq_getElem?] at hend
  have hdistance : node + 1 + (loaded.neighborOffsets.length - 1 - (node + 1)) =
      loaded.neighborOffsets.length - 1 := by omega
  rw [← hdistance] at hend
  exact hrun _ (node + 1) last header.edgeCount hlast hend

theorem Placed.offsets_eq {whole paged : LoadedIndex} (hwhole : Placed topology header whole)
    (hpaged : Placed topology header paged) : paged.neighborOffsets = whole.neighborOffsets := by
  obtain ⟨rest, hread⟩ := hwhole.offsets
  obtain ⟨other, hother⟩ := hpaged.offsets
  exact (Prod.mk.inj (Except.ok.inj (hother.symm.trans hread))).1

theorem determines_u32 (description : String) : Determines (readU32 description) appendU32Le :=
  .word fun _ => UInt32.toNat_ofNat_of_lt'

variable {adjacency : List UInt32}

theorem subspan_serializeU32 (rest : List UInt8) {first degree : Nat}
    (hfits : first + degree ≤ adjacency.length) :
    subspan (serializeU32 adjacency ++ rest) (first * 4) (degree * 4) =
      serializeU32 (subspan adjacency first degree) := by
  have hbytes : ∀ list : List UInt32, (serializeU32 list).length = list.length * 4 :=
    length_records length_appendU32Le
  have hsplit : serializeU32 adjacency = serializeU32 (adjacency.take first) ++
      (serializeU32 (subspan adjacency first degree) ++
        serializeU32 (adjacency.drop (first + degree))) := by
    simp only [serializeU32, ← List.flatMap_append, subspan]
    rw [← List.drop_drop, List.take_append_drop, List.take_append_drop]
  have hbefore : (serializeU32 (adjacency.take first)).length = first * 4 := by
    rw [hbytes, List.length_take_of_le (by omega)]
  have hrow : (serializeU32 (subspan adjacency first degree)).length = degree * 4 := by
    rw [hbytes, length_subspan hfits]
  rw [hsplit, List.append_assoc, List.append_assoc, ← hbefore, ← hrow, subspan_between]

theorem length_of_readAdjacency {bytes : List UInt8}
    (hread : readAdjacency header bytes = .ok adjacency) :
    adjacency.length = header.edgeCount.toNat := by
  simp only [readAdjacency, bind_ok, reject_ok, exists_const] at hread
  obtain ⟨⟨targets, rest⟩, hmany, -, hresult⟩ := hread
  obtain rfl := Except.ok.inj hresult
  exact length_readMany hmany

theorem Placed.list_bytes (hplaced : Placed topology header loaded)
    (hread : readAdjacency header (header.adjacency.read topology) = .ok adjacency)
    {first degree : Nat} (hfits : first + degree ≤ header.edgeCount.toNat) :
    subspan topology (header.adjacency.offset.toNat + first * 4) (degree * 4) =
      serializeU32 (subspan adjacency first degree) := by
  simp only [readAdjacency, bind_ok, reject_ok, exists_const] at hread
  obtain ⟨⟨targets, rest⟩, hmany, -, hresult⟩ := hread
  obtain rfl := Except.ok.inj hresult
  obtain ⟨hsection, hcount⟩ := (determines_u32 _).many hmany
  have hfits' : first + degree ≤ targets.length := hcount ▸ hfits
  have hinner : subspan (header.adjacency.read topology) (first * 4) (degree * 4) =
      subspan topology (header.adjacency.offset.toNat + first * 4) (degree * 4) := by
    apply subspan_subspan
    rw [hplaced.bytes]
    omega
  rw [← hinner, hsection]
  exact subspan_serializeU32 rest hfits'

theorem neighbors_paged_iff {whole : LoadedIndex} (hwhole : Placed topology header whole)
    (hpaged : Placed topology header loaded)
    (hread : readAdjacency header (header.adjacency.read topology) = .ok adjacency)
    (hadjacency : whole.adjacency = .whole adjacency)
    (hplace : loaded.adjacency = .paged topology header.adjacency.offset.toNat) (node : Nat) :
    loaded.neighbors node = whole.neighbors node ↔ loaded.ListInWholePages node := by
  have hoffsets := hwhole.offsets_eq hpaged
  cases hfirst : whole.neighborOffsets[node]? with
  | none =>
    simp [LoadedIndex.neighbors, LoadedIndex.ListInWholePages, element, hoffsets, hfirst, bind,
      Except.bind]
  | some first =>
    cases hlast : whole.neighborOffsets[node + 1]? with
    | none =>
      simp [LoadedIndex.neighbors, LoadedIndex.ListInWholePages, element, hoffsets, hfirst,
        hlast, bind, Except.bind]
    | some last =>
      obtain ⟨hle, hbound⟩ := hwhole.ordered hfirst hlast
      have hfits : first.toNat + (last.toNat - first.toNat) ≤ header.edgeCount.toNat := by omega
      have hbytes := hwhole.list_bytes hread hfits
      have hstop : header.adjacency.offset.toNat + first.toNat * 4 +
          (last.toNat - first.toNat) * 4 =
            header.adjacency.offset.toNat + last.toNat * 4 := by omega
      have hlist : whole.neighbors node =
          .ok (subspan adjacency first.toNat (last.toNat - first.toNat)) := by
        simp only [LoadedIndex.neighbors, element, hfirst, hlast, hadjacency]
        rfl
      have hcount : (subspan adjacency first.toNat (last.toNat - first.toNat)).length =
          last.toNat - first.toNat :=
        length_subspan (hfits.trans (Nat.le_of_eq (length_of_readAdjacency hread).symm))
      have hpages : loaded.ListInWholePages node ↔
          (0 < (last.toNat - first.toNat) * 4 → pageEnd (header.adjacency.offset.toNat +
            first.toNat * 4 + (last.toNat - first.toNat) * 4) ≤ topology.length) := by
        rw [hstop]
        constructor
        · intro hin hpositive
          refine hin first last topology _ ?_ ?_ hplace (UInt64.lt_iff_toNat_lt.mpr (by omega))
          · rw [hoffsets, hfirst]
          · rw [hoffsets, hlast]
        · intro hin start stop file offset hstart hend hfile hlt
          rw [hoffsets] at hstart hend
          obtain rfl := Option.some.inj (hstart.symm.trans hfirst)
          obtain rfl := Option.some.inj (hend.symm.trans hlast)
          obtain ⟨rfl, rfl⟩ := LoadedAdjacency.paged.inj (hfile.symm.trans hplace)
          have hless := UInt64.lt_iff_toNat_lt.mp hlt
          exact hin (by omega)
      rw [hpages, hlist]
      simp only [LoadedIndex.neighbors, hoffsets, hplace, bind_ok, element_eq_ok,
        copyPaged_eq_ok_iff]
      constructor
      · rintro ⟨found, hfound, stop, hstopFound, bytes, ⟨hwholePages, -⟩, -⟩
        obtain rfl := Option.some.inj (hfound.symm.trans hfirst)
        obtain rfl := Option.some.inj (hstopFound.symm.trans hlast)
        exact hwholePages
      · intro hwholePages
        refine ⟨first, hfirst, last, hlast, _, ⟨hwholePages, rfl⟩, ?_⟩
        rw [hbytes]
        exact ⟨_, readMany_section (reads_narrow _) hcount.symm, rfl⟩

section

variable (hplaced : Placed topology header loaded)
  (hplace : loaded.adjacency = .paged topology header.adjacency.offset.toNat)
include hplaced hplace

theorem neighborsThrough_eq {cache : TopologyCache} (hmirrors : cache.Mirrors topology) (node :
    Nat) :
    ∃ next, loaded.neighborsThrough cache node = (next, loaded.neighbors node) ∧
      next.Mirrors topology := by
  unfold LoadedIndex.neighborsThrough LoadedIndex.neighbors
  rw [hplace]
  dsimp only
  cases hfirst : loaded.neighborOffsets[node]? with
  | none =>
    refine ⟨cache, ?_, hmirrors⟩
    simp [element, hfirst, bind, Except.bind]
  | some first =>
    cases hlast : loaded.neighborOffsets[node + 1]? with
    | none =>
      refine ⟨cache, ?_, hmirrors⟩
      simp [element, hfirst, hlast, bind, Except.bind]
    | some last =>
      obtain ⟨hle, hbound⟩ := hplaced.ordered hfirst hlast
      have hinside := hplaced.inside
      have hsmall := hplaced.small
      rw [hplaced.bytes] at hinside
      obtain ⟨next, hcopy, hnext⟩ := hmirrors.copyPages
        (header.adjacency.offset.toNat + first.toNat * 4) ((last.toNat - first.toNat) * 4)
        (by omega)
      refine ⟨next, ?_, hnext⟩
      simp only [element, hfirst, hlast, hcopy, bind, Except.bind]
      cases copyPaged topology (header.adjacency.offset.toNat + first.toNat * 4)
        ((last.toNat - first.toNat) * 4) with
      | error failure => rfl
      | ok bytes =>
        simp only
        cases readMany (readU32 "adjacency target") (last.toNat - first.toNat) bytes <;> rfl

theorem reached_mirrors (hpositive : 0 < cachePages) {cache : TopologyCache}
    (hreached : loaded.Reached cachePages cache) : cache.Mirrors topology := by
  induction hreached with
  | opened => exact .init hpositive topology
  | read node _ ih =>
    obtain ⟨next, hread, hnext⟩ := neighborsThrough_eq hplaced hplace ih node
    rw [hread]
    exact hnext

end

/-- After any reads, at any capacity, the paged mode returns the list of the whole
mode if and only if the file has the pages of the list whole. -/
theorem paged_neighbors_iff {whole : LoadedIndex} {otherOnly : Bool} {cache : TopologyCache}
    (hwhole : load disk topology vectors topologyOnly false 0 = .ok whole)
    (hpaged : load disk topology vectors otherOnly true cachePages = .ok loaded)
    (hreached : loaded.Reached cachePages cache) (node : Nat) :
    (loaded.neighborsThrough cache node).2 = whole.neighbors node ↔
      loaded.ListInWholePages node := by
  obtain ⟨header, adjacency, hheader, hplacedWhole, hread, hadjacency⟩ := whole_of_load hwhole
  obtain ⟨other, hother, hplaced, hplace⟩ := paged_of_load hpaged
  obtain ⟨rfl, hpositive⟩ := loadHeader_alike hheader hother
  obtain ⟨next, hthrough, -⟩ := neighborsThrough_eq hplaced hplace
    (reached_mirrors hplaced hplace hpositive hreached) node
  rw [hthrough]
  exact neighbors_paged_iff hplacedWhole hplaced hread hadjacency hplace node

/-- The lists of a build, read in the paged mode after any other reads. -/
theorem neighborsThrough_built_iff {input : BuildInput} {compress : Option Compress}
    {artifacts : Artifacts} {cache : TopologyCache} (hraw : input.encoding = .rawU32)
    (hbuild : build input compress = .ok artifacts)
    (hload : load input.disk artifacts.topology artifacts.vectors topologyOnly true cachePages =
      .ok loaded) (hreached : loaded.Reached cachePages cache) {node : Nat} {list : List UInt32}
    (hlist : artifacts.contents.lists[node]? = some list) :
    (loaded.neighborsThrough cache node).2 = .ok list ↔
      (list ≠ [] → pageEnd (artifacts.contents.sections.adjacencyOffset +
        ((artifacts.contents.lists.take node).flatten.length + list.length) * 4) ≤
          artifacts.topology.length) := by
  obtain ⟨header, hheader, hplaced, hplace⟩ := paged_of_load hload
  have hpositive : cachePages ≠ 0 := by
    rintro rfl
    simp [loadHeader, reject] at hheader
  obtain ⟨next, hthrough, -⟩ := neighborsThrough_eq hplaced hplace
    (reached_mirrors hplaced hplace (Nat.pos_of_ne_zero hpositive) hreached) node
  have hready := build_ready hraw hbuild
  obtain ⟨rfl, -⟩ := (hready.load_eq_ok_iff (by simpa using hpositive)).mp hload
  rw [hthrough]
  exact hready.neighbors_paged_iff hlist

end Loading

/-! Two nodes with one neighbor each: the artifact is shorter than a page. -/

theorem pageEnd_positive (stop : Nat) : kIoVectorPageSize ≤ pageEnd stop :=
  Nat.le_mul_of_pos_left _ (Nat.succ_pos _)

/-- Builds the artifacts of an input and loads them in both modes. -/
def loadBoth (input : BuildInput) (cachePages : Nat) :
    Except Error (List UInt8 × LoadedIndex × LoadedIndex) := do
  let artifacts ← build input none
  let whole ← load input.disk artifacts.topology artifacts.vectors false false 0
  let paged ← load input.disk artifacts.topology artifacts.vectors false true cachePages
  .ok (artifacts.topology, whole, paged)

set_option maxRecDepth 100000 in
theorem loadBoth_pair : ∃ loaded, loadBoth (pairInput .originalId) 1 = .ok loaded ∧
    (loaded.2.1.neighbors 0 = .ok [1] ∧ loaded.2.2.neighborOffsets = [0, 1, 2] ∧
      loaded.1.length = 392) := by
  apply exists_ok
  decide +kernel

theorem load_pair : ∃ topology vectors whole paged,
    load pairDisk topology vectors false false 0 = .ok whole ∧
      load pairDisk topology vectors false true 1 = .ok paged ∧
      whole.neighbors 0 = .ok [1] ∧ paged.neighborOffsets = [0, 1, 2] ∧ topology.length = 392 := by
  obtain ⟨⟨topology, whole, paged⟩, hboth, hfacts⟩ := loadBoth_pair
  simp only [loadBoth, bind_ok] at hboth
  obtain ⟨artifacts, -, found, hwhole, other, hpaged, hresult⟩ := hboth
  obtain ⟨rfl, rfl, rfl⟩ := Except.ok.inj hresult
  exact ⟨_, _, _, _, hwhole, hpaged, hfacts⟩

theorem paged_neighbors_refuted : ∃ disk topology vectors whole paged,
    load disk topology vectors false false 0 = .ok whole ∧
      load disk topology vectors false true 1 = .ok paged ∧ whole.neighbors 0 = .ok [1] ∧
      (paged.neighborsThrough (.init 1) 0).2 ≠ whole.neighbors 0 := by
  obtain ⟨topology, vectors, whole, paged, hwhole, hpaged, hlist, hoffsets, hlength⟩ := load_pair
  refine ⟨_, topology, vectors, whole, paged, hwhole, hpaged, hlist, ?_⟩
  obtain ⟨header, adjacency, hheader, hplacedWhole, hread, hadjacency⟩ := whole_of_load hwhole
  obtain ⟨other, hother, hplaced, hplace⟩ := paged_of_load hpaged
  obtain ⟨rfl, hpositive⟩ := loadHeader_alike hheader hother
  obtain ⟨next, hthrough, -⟩ := neighborsThrough_eq hplaced hplace (.init hpositive _) 0
  rw [hthrough]
  intro hsame
  have hin := (neighbors_paged_iff hplacedWhole hplaced hread hadjacency hplace 0).mp hsame 0 1 _ _
    (by rw [hoffsets]; rfl) (by rw [hoffsets]; rfl) hplace (by decide)
  have hbound := (pageEnd_positive _).trans hin
  rw [hlength] at hbound
  exact absurd hbound (by decide)

theorem paged_neighbors_pair : ∃ topology vectors whole paged,
    load pairDisk topology vectors false false 0 = .ok whole ∧
      load pairDisk topology vectors false true 1 = .ok paged ∧
      ((paged.neighborsThrough (.init 1) 0).2 = whole.neighbors 0 ↔ paged.ListInWholePages 0) := by
  obtain ⟨topology, vectors, whole, paged, hwhole, hpaged, -⟩ := load_pair
  exact ⟨topology, vectors, whole, paged, hwhole, hpaged, paged_neighbors_iff hwhole hpaged .opened 0⟩

theorem neighborsThrough_built_pair : ∃ artifacts loaded,
    build (pairInput .originalId) none = .ok artifacts ∧
      load pairDisk artifacts.topology artifacts.vectors false true 1 = .ok loaded ∧
      (loaded.neighborsThrough (.init 1) 0).2 ≠ .ok [1] := by
  obtain ⟨_, hboth, -⟩ := loadBoth_pair
  simp only [loadBoth, bind_ok] at hboth
  obtain ⟨artifacts, hbuild, _, -, loaded, hload, -⟩ := hboth
  obtain ⟨other, hother, hlists, hsize⟩ := build_plainPair
  obtain rfl := Except.ok.inj (hother.symm.trans hbuild)
  refine ⟨other, loaded, hbuild, hload, fun hsame => ?_⟩
  have hwhole := (neighborsThrough_built_iff rfl hbuild hload .opened (by rw [hlists]; rfl)).mp hsame
  have hpage := (pageEnd_positive _).trans (hwhole (by simp))
  rw [hsize] at hpage
  exact absurd hpage (by decide)

end SkipCell.IoIndex

import SkipCell.IoIndex.BoundedReaders
import SkipCell.IoIndex.StatisticsRoundTrip

/-! # Bounds of a raw topology

`parse_raw_topology` multiplies the counts of the header with a check, but adds the place and
the size of the offsets without one. A sum that starts over at `2 ^ 64` admits offsets that end
behind the file.
-/

namespace SkipCell.IoIndex.AdjacencyStatistics

open Foundation Sidecar

/-- The header passes all checks in front of the one that adds the place and the size of the
offsets. -/
structure ReachesSum (file : List UInt8) (header : RawHeader) : Prop where
  size : 256 ≤ file.length
  parsed : ∃ rest, readRawHeader file.length file = .ok (header, rest)
  offsetsExact : (header.pointCount.toNat + 1) * 8 < 2 ^ 64
  adjacencyExact : header.edgeCount.toNat * 4 < 2 ^ 64
  points : header.pointCount ≠ 0
  degree : header.maximumDegree ≠ 0
  encoding : header.encoding = 0
  place : header.offsets.offset.toNat = header.headerBytes.toNat
  bytes : header.offsets.bytes.toNat = (header.pointCount.toNat + 1) * 8

structure Passes (file : List UInt8) (header : RawHeader) : Prop extends ReachesSum file header where
  follows : header.adjacency.offset = header.offsets.offset + header.offsets.bytes
  edges : header.adjacency.bytes.toNat = header.edgeCount.toNat * 4
  inside : header.adjacency.offset.toNat ≤ file.length
  fits : header.adjacency.bytes.toNat ≤ file.length - header.adjacency.offset.toNat

/-- The views lie inside the file, and the offsets ascend from zero to the number of edges. -/
structure ViewsInside (topology : RawTopology) : Prop where
  offsets : topology.offsets.offset.toNat + topology.offsets.bytes.toNat ≤ topology.file.length
  edges : topology.adjacency.offset.toNat + topology.adjacency.bytes.toNat ≤ topology.file.length
  first : topology.rawOffset 0 = .ok 0
  ascending : ∀ node < topology.pointCount.toNat, ∃ first last,
    topology.rawOffset node = .ok first ∧ topology.rawOffset (node + 1) = .ok last ∧ first ≤ last
  last : topology.rawOffset topology.pointCount.toNat = .ok topology.edgeCount

variable {file : List UInt8}

theorem checkSections_eq_ok {header : RawHeader} {rest : List UInt8} (hsize : 256 ≤ file.length)
    (hparsed : readRawHeader file.length file = .ok (header, rest)) :
    RawTopology.checkSections { header with file } = .ok () ↔ Passes file header := by
  simp only [RawTopology.checkSections, bind_ok, addChecked_eq_ok,
    multiplyChecked_eq_ok, reject_ok, not_or, not_not, Nat.not_lt]
  constructor
  · rintro ⟨_, ⟨-, rfl⟩, _, ⟨hoffsets, rfl⟩, _, ⟨hadjacency, rfl⟩, hpoints, hdegree, hencoding,
      hplace, hbytes, hfollows, hedges, hinside, hfits⟩
    exact ⟨⟨hsize, ⟨rest, hparsed⟩, hoffsets, hadjacency, hpoints, hdegree, hencoding, hplace,
      hbytes⟩, hfollows, hedges, hinside, hfits⟩
  · intro hpasses
    have hexact := hpasses.offsetsExact
    exact ⟨_, ⟨by omega, rfl⟩, _, ⟨hexact, rfl⟩, _, ⟨hpasses.adjacencyExact, rfl⟩, hpasses.points,
      hpasses.degree, hpasses.encoding, hpasses.place, hpasses.bytes, hpasses.follows,
      hpasses.edges, hpasses.inside, hpasses.fits⟩

theorem checkSections_ends (topology : RawTopology) :
    Ends .outOfBounds topology.checkSections :=
  Ends.bind (addChecked_ends _ _ _) fun _ _ => Ends.bind (multiplyChecked_ends _ _ _) fun _ _ =>
    Ends.bind (multiplyChecked_ends _ _ _) fun _ _ => Ends.reject nofun

theorem Passes.offsets_inside {header : RawHeader} (hpasses : Passes file header)
    (hexact : header.headerBytes.toNat + (header.pointCount.toNat + 1) * 8 < 2 ^ 64) :
    header.offsets.offset.toNat + header.offsets.bytes.toNat ≤ file.length := by
  have hsum : header.adjacency.offset.toNat =
      header.offsets.offset.toNat + header.offsets.bytes.toNat := by
    rw [hpasses.follows, UInt64.toNat_add, hpasses.place, hpasses.bytes, Nat.mod_eq_of_lt hexact]
  exact hsum ▸ hpasses.inside

theorem parseRawTopology_ends_iff (hfile : file.length < 2 ^ 64) :
    Ends .outOfBounds (parseRawTopology file) ↔ ∀ header, Passes file header →
      header.headerBytes.toNat + (header.pointCount.toNat + 1) * 8 < 2 ^ 64 := by
  constructor
  · intro hends header hpasses
    by_contra hwraps
    obtain ⟨rest, hparsed⟩ := hpasses.parsed
    have hchecked := (checkSections_eq_ok hpasses.size hparsed).mpr hpasses
    have hoffsets : sectionBytes header.offsets file = .error .outOfBounds := by
      have hplace := hpasses.place
      have hbytes := hpasses.bytes
      rw [sectionBytes, reject, if_pos (by omega)]
      rfl
    refine hends ?_
    rw [parseRawTopology, reject, if_neg (Nat.not_lt.mpr hpasses.size), hparsed]
    change (RawTopology.checkSections { header with file } >>= fun _ => _) = _
    rw [hchecked]
    change (sectionBytes header.offsets file >>= fun _ => _) = _
    rw [hoffsets]
    rfl
  · intro hexact
    refine Ends.bind (Ends.reject (by simp)) fun _ hsize =>
      Ends.bind (avoids_readRawHeader file.length file) fun outcome hparsed =>
        Ends.bind (checkSections_ends _) fun _ hchecked => ?_
    obtain ⟨header, rest⟩ := outcome
    have hpasses := (checkSections_eq_ok (Nat.not_lt.mp (reject_ok.mp hsize)) hparsed).mp hchecked
    have hoffsets : sectionBytes header.offsets file = .ok (header.offsets.read file) := by
      rw [sectionBytes, reject,
        if_neg (Nat.not_lt.mpr (hpasses.offsets_inside (hexact header hpasses)))]
      rfl
    have hadjacency : sectionBytes header.adjacency file = .ok (header.adjacency.read file) := by
      have hinside := hpasses.inside
      have hfits := hpasses.fits
      rw [sectionBytes, reject, if_neg (by omega)]
      rfl
    refine Ends.bind (hoffsets ▸ Ends.ok _) fun _ _ => Ends.bind (hadjacency ▸ Ends.ok _) fun _ _ =>
      Ends.bind (Ends.reject (by simp)) fun _ _ => Ends.bind (checkOffsets_ends _) fun _ _ => Ends.ok _

theorem viewsInside_of_parse {topology : RawTopology}
    (hparse : parseRawTopology file = .ok topology) :
    ViewsInside topology ∧ topology.file = file := by
  obtain ⟨htopology, hsame⟩ := wellFormed_of_parse hparse
  simp only [parseRawTopology, sectionBytes, bind_ok, reject_ok, Nat.not_lt] at hparse
  obtain ⟨_, -, header, -, _, -, _, ⟨_, hoffsets, -⟩, _, ⟨_, hadjacency, -⟩, _, -, _, -, hresult⟩ :=
    hparse
  obtain rfl := Except.ok.inj hresult
  have hcovers := htopology.offsets
  simp only [RawTopology.checkOffsets, bind_ok, reject_ok, not_or, not_not] at hcovers
  obtain ⟨first, hfirst, last, hlast, _, ⟨rfl, rfl⟩, -⟩ := hcovers
  refine ⟨⟨hoffsets, hadjacency, hfirst, ?_, hlast⟩, hsame⟩
  intro node hnode
  obtain ⟨first, last, hfirst, hlast, hle, -, -⟩ := htopology.offsets_of hnode
  exact ⟨first, last, hfirst, hlast, hle⟩

/-- For every file: the parser throws or returns views that lie inside, and the sum of its checks
does not wrap, if and only if no header reaches the sum whose offsets would end at `2 ^ 64` or
behind. It reads out of bounds exactly where such a header passes. -/
theorem parseRawTopology_inside_iff (file : List UInt8) (hfile : file.length < 2 ^ 64) :
    ((Ends .outOfBounds (parseRawTopology file) ∧
        (∀ topology, parseRawTopology file = .ok topology →
          ViewsInside topology ∧ topology.file = file) ∧
        ∀ header, ReachesSum file header →
          header.offsets.offset.toNat + header.offsets.bytes.toNat < 2 ^ 64) ↔
      ∀ header, ReachesSum file header →
        header.headerBytes.toNat + (header.pointCount.toNat + 1) * 8 < 2 ^ 64) ∧
    (Ends .outOfBounds (parseRawTopology file) ↔ ∀ header, Passes file header →
      header.headerBytes.toNat + (header.pointCount.toNat + 1) * 8 < 2 ^ 64) := by
  refine ⟨⟨?_, fun hexact => ⟨?_, fun topology => viewsInside_of_parse, ?_⟩⟩,
    parseRawTopology_ends_iff hfile⟩
  · rintro ⟨-, -, hexact⟩ header hreaches
    rw [← hreaches.place, ← hreaches.bytes]
    exact hexact header hreaches
  · exact (parseRawTopology_ends_iff hfile).mpr fun header hpasses =>
      hexact header hpasses.toReachesSum
  · intro header hreaches
    rw [hreaches.place, hreaches.bytes]
    exact hexact header hreaches

/-- A header of `2 ^ 61 - 2` points without edges. The sum of the place and the size of its
offsets is inside the header. -/
def wrappedTopology : List UInt8 :=
  serializeHeader
    { version := 5
      pointCount := 2 ^ 61 - 2
      dimension := 1
      maxDegree := 1
      encoding := .rawU32
      layout := .originalId
      edgeCount := 0
      vectorPageCount := 1
      cellCount := 0
      base := {}
      vectors := {}
      offsets := ⟨320, 2 ^ 64 - 8, 0⟩
      adjacency := ⟨312, 0, 0⟩
      directory := {}
      cellDirectory := {}
      prefetchDirectory := {} }

theorem parseRawTopology_inside_refuted :
    parseRawTopology wrappedTopology = .error .outOfBounds := by
  have hevaluated : (match parseRawTopology wrappedTopology with
    | .error failure => decide (failure = .outOfBounds)
    | .ok _ => false) = true := by
    decide +kernel
  cases hparse : parseRawTopology wrappedTopology with
  | error failure =>
    rw [hparse] at hevaluated
    exact congrArg Except.error (of_decide_eq_true hevaluated)
  | ok topology =>
    rw [hparse] at hevaluated
    cases hevaluated

theorem parseRawTopology_inside_iff_twoNodes :
    Ends .outOfBounds (parseRawTopology twoNodes) ∧
      (∀ topology, parseRawTopology twoNodes = .ok topology →
        ViewsInside topology ∧ topology.file = twoNodes) ∧
      ∀ header, ReachesSum twoNodes header →
        header.offsets.offset.toNat + header.offsets.bytes.toNat < 2 ^ 64 := by
  refine (parseRawTopology_inside_iff twoNodes (by decide +kernel)).1.mpr fun header hreaches => ?_
  have hevaluated : (readRawHeader twoNodes.length twoNodes).toOption.any (fun outcome =>
      decide (outcome.1.headerBytes.toNat + (outcome.1.pointCount.toNat + 1) * 8 < 2 ^ 64)) =
      true := by
    decide +kernel
  obtain ⟨outcome, hread, hexact⟩ := exists_ok hevaluated
  obtain ⟨rest, hparsed⟩ := hreaches.parsed
  obtain rfl := Except.ok.inj (hread.symm.trans hparsed)
  exact hexact

end SkipCell.IoIndex.AdjacencyStatistics

import SkipCell.IoIndex.AdjacencyStatistics

/-! # Readers that stay in the file

What reads a field of a header checks first that it is there. Headers of topologies are read
without a read out of bounds, whatever the bytes are.
-/

namespace SkipCell.IoIndex

open Foundation Sidecar

theorem avoids_rejectRead (condition : Prop) [Decidable condition] (message : String) :
    Avoids .outOfBounds (rejectRead condition message) := by
  unfold rejectRead
  split
  · exact Avoids.throw nofun
  · exact Avoids.pure ()

theorem avoids_readU32 (description : String) : Avoids .outOfBounds (readU32 description) :=
  (Avoids.word (show Error.runtimeError _ ≠ .outOfBounds from nofun) 4).map UInt32.ofNat

theorem avoids_readU64 (description : String) : Avoids .outOfBounds (readU64 description) :=
  (Avoids.word (show Error.runtimeError _ ≠ .outOfBounds from nofun) 8).map UInt64.ofNat

theorem avoids_readFingerprint (size checksum : String) :
    Avoids .outOfBounds (readFingerprint size checksum) :=
  (avoids_readU64 _).bind fun _ => (avoids_readU64 _).bind fun _ => Avoids.pure _

theorem avoids_readSection (offset size checksum : String) :
    Avoids .outOfBounds (readSection offset size checksum) :=
  (avoids_readU64 _).bind fun _ => (avoids_readU64 _).bind fun _ =>
    (avoids_readU64 _).bind fun _ => Avoids.pure _

theorem addChecked_ends (left right : Nat) (description : String) :
    Ends .outOfBounds (addChecked left right description) := by
  unfold addChecked
  split
  · exact Ends.error nofun
  · exact Ends.ok _

theorem multiplyChecked_ends (left right : Nat) (description : String) :
    Ends .outOfBounds (multiplyChecked left right description) := by
  unfold multiplyChecked
  split
  · exact Ends.error nofun
  · exact Ends.ok _

namespace AdjacencyStatistics

theorem avoids_readRawHeader (size : Nat) : Avoids .outOfBounds (readRawHeader size) :=
  (avoids_readU64 _).bind fun _ => (avoids_rejectRead _ _).bind fun _ =>
    (avoids_readU32 _).bind fun _ => (avoids_rejectRead _ _).bind fun _ =>
    (avoids_readU32 _).bind fun _ => (avoids_rejectRead _ _).bind fun _ =>
    (avoids_readU32 _).bind fun _ => (avoids_rejectRead _ _).bind fun _ =>
    (avoids_readU32 _).bind fun _ => (avoids_rejectRead _ _).bind fun _ =>
    (avoids_readU64 _).bind fun _ => (avoids_readU64 _).bind fun _ =>
    (avoids_readU32 _).bind fun _ => (avoids_readU32 _).bind fun _ =>
    (avoids_readU32 _).bind fun _ => (avoids_readU64 _).bind fun _ =>
    (avoids_readU64 _).bind fun _ => (avoids_readU64 _).bind fun _ =>
    (avoids_readFingerprint _ _).bind fun _ => (avoids_readFingerprint _ _).bind fun _ =>
    (avoids_readSection _ _ _).bind fun _ => (avoids_readSection _ _ _).bind fun _ =>
    Avoids.pure _

theorem rawOffset_ends (topology : RawTopology) (node : Nat) :
    Ends .outOfBounds (topology.rawOffset node) :=
  Ends.bind (avoids_readU64 _ _) fun _ _ => Ends.ok _

theorem checkOffsets_ends (topology : RawTopology) : Ends .outOfBounds topology.checkOffsets := by
  refine Ends.bind (rawOffset_ends topology 0) fun _ _ =>
    Ends.bind (rawOffset_ends topology _) fun _ _ => Ends.bind (Ends.reject nofun) fun _ _ =>
      Ends.bind (Ends.scan (motive := fun _ _ => True) trivial (fun node _ previous _ _ => ?_)
        fun _ _ _ _ _ _ _ => trivial) fun _ _ => Ends.ok ()
  exact Ends.bind (rawOffset_ends topology _) fun _ _ => Ends.bind (Ends.reject nofun) fun _ _ =>
    Ends.ok _

end AdjacencyStatistics

end SkipCell.IoIndex

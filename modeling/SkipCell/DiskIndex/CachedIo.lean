import SkipCell.DiskIndex.Layout

/-! # Cached streams

`cached_ifstream_t` and `cached_ofstream_t` answer and write as streams without a cache, whatever
its size.
-/

namespace SkipCell.DiskIndex

open Foundation

/-- `cached_ifstream_t`. The reader stands at `position`, behind what the cache holds. -/
structure CachedReader where
  file : List UInt8
  position : Nat
  cache : List UInt8
  curOff : Nat

namespace CachedReader

variable (reader : CachedReader)

def «open» (file : List UInt8) (cacheSize : Nat) : CachedReader where
  file
  position := min cacheSize file.length
  cache := file.take cacheSize
  curOff := 0

def beyondEnd (nBytes cachedBytes : Nat) : Error :=
  let fsize := reader.file.length
  let pos := reader.position
  .diskannException ("Reading beyond end of file\n" ++
    s!"n_bytes: {nBytes} cached_bytes: {cachedBytes} fsize: {fsize} current pos:{pos}\n")

/-- What is left of the file behind the reader fills the cache, where it can fill it whole. -/
def refill : CachedReader :=
  if reader.cache.length ≤ reader.file.length - reader.position then
    { reader with
      position := reader.position + reader.cache.length
      cache := subspan reader.file reader.position reader.cache.length
      curOff := 0 }
  else { reader with curOff := reader.cache.length }

def read (nBytes : Nat) : CachedReader × Except Error (List UInt8) :=
  let cachedBytes := reader.cache.length - reader.curOff
  if nBytes ≤ cachedBytes then
    ({ reader with curOff := reader.curOff + nBytes },
      .ok (subspan reader.cache reader.curOff nBytes))
  else if reader.file.length - reader.position < nBytes - cachedBytes then
    (reader, .error (reader.beyondEnd nBytes cachedBytes))
  else
    (refill { reader with position := reader.position + (nBytes - cachedBytes) },
      .ok (reader.cache.drop reader.curOff ++
        subspan reader.file reader.position (nBytes - cachedBytes)))

end CachedReader

/-- A reader without a cache: what is left of the file. -/
def readDirect (left : List UInt8) (nBytes : Nat) : List UInt8 × Option (List UInt8) :=
  if nBytes ≤ left.length then (left.drop nBytes, some (left.take nBytes)) else (left, none)

def CachedReader.reads : CachedReader → List Nat → List (Option (List UInt8))
  | _, [] => []
  | reader, nBytes :: sizes =>
    (reader.read nBytes).2.toOption :: (reader.read nBytes).1.reads sizes

def readsDirect : List UInt8 → List Nat → List (Option (List UInt8))
  | _, [] => []
  | left, nBytes :: sizes =>
    (readDirect left nBytes).2 :: readsDirect (readDirect left nBytes).1 sizes

namespace CachedReader

variable {reader : CachedReader}

/-- What a reader has not given out: the rest of its cache and of its file. -/
def left (reader : CachedReader) : List UInt8 :=
  reader.cache.drop reader.curOff ++ reader.file.drop reader.position

theorem left_refill (reader : CachedReader) :
    reader.refill.left = reader.file.drop reader.position := by
  unfold refill left subspan
  split
  · rw [List.drop_zero, ← List.drop_drop]
    exact List.take_append_drop _ _
  · exact congrArg (· ++ _) List.drop_length

theorem read_eq (reader : CachedReader) (nBytes : Nat) :
    ((reader.read nBytes).1.left, (reader.read nBytes).2.toOption) =
      readDirect reader.left nBytes := by
  have hcached : (reader.cache.drop reader.curOff).length = reader.cache.length - reader.curOff :=
    List.length_drop
  have hleft : reader.left.length =
      reader.cache.length - reader.curOff + (reader.file.length - reader.position) := by
    simp [left]
  unfold read readDirect
  by_cases hhit : nBytes ≤ reader.cache.length - reader.curOff
  · -- the cache holds all of it
    rw [if_pos hhit, if_pos (by omega), Prod.mk.injEq]
    have hfits := hcached.symm ▸ hhit
    constructor
    · rw [left, left, List.drop_append_of_le_length hfits, List.drop_drop]
    · exact congrArg some (List.take_append_of_le_length hfits).symm
  · by_cases hend : reader.file.length - reader.position <
        nBytes - (reader.cache.length - reader.curOff)
    · rw [if_neg hhit, if_pos hend, if_neg (by omega)]
      rfl
    · -- the rest of the cache, then from the file
      rw [if_neg hhit, if_neg hend, if_pos (by omega), Prod.mk.injEq]
      constructor
      · have hgone : (reader.cache.drop reader.curOff).drop nBytes = [] :=
          List.drop_of_length_le (by omega)
        rw [left_refill, left, List.drop_append, hgone, hcached, List.nil_append, List.drop_drop]
      · refine congrArg some ?_
        rw [left, List.take_append, List.take_of_length_le (by omega), hcached]
        rfl

theorem left_open (file : List UInt8) (cacheSize : Nat) :
    («open» file cacheSize).left = file := by
  rcases Nat.le_total cacheSize file.length with hsmall | hlarge
  · simp [«open», left, Nat.min_eq_left hsmall]
  · simp [«open», left, Nat.min_eq_right hlarge, List.take_of_length_le hlarge]

/-- Every sequence of reads, past the end or not, is answered as by reads of the file at the
running offset; a read that fails leaves what is left as it is. -/
theorem reads_open (file : List UInt8) (cacheSize : Nat) (sizes : List Nat) :
    («open» file cacheSize).reads sizes = readsDirect file sizes := by
  have hrun : ∀ reader : CachedReader, reader.reads sizes = readsDirect reader.left sizes := by
    induction sizes with
    | nil => exact fun _ => rfl
    | cons nBytes sizes ih =>
      intro reader
      rw [reads, readsDirect, ← read_eq, ih]
  rw [hrun, left_open]

end CachedReader

structure OutputFile where
  bytes : List UInt8
  position : Nat

def OutputFile.write (file : OutputFile) (written : List UInt8) : OutputFile where
  bytes := patch file.bytes file.position written
  position := file.position + written.length

/-- `cached_ofstream_t`, with the part of its buffer that is in use. -/
structure CachedWriter where
  file : OutputFile
  cacheSize : Nat
  cache : List UInt8

inductive WriteCall
  | write (bytes : List UInt8)
  | reset

namespace CachedWriter

variable (writer : CachedWriter)

def «open» (cacheSize : Nat) : CachedWriter := ⟨⟨[], 0⟩, cacheSize, []⟩

def write (bytes : List UInt8) : CachedWriter :=
  if bytes.length ≤ writer.cacheSize - writer.cache.length then
    { writer with cache := writer.cache ++ bytes }
  else { writer with file := (writer.file.write writer.cache).write bytes, cache := [] }

def flushCache : CachedWriter :=
  { writer with file := writer.file.write writer.cache, cache := [] }

def reset : CachedWriter :=
  { writer.flushCache with file := { writer.flushCache.file with position := 0 } }

def close : OutputFile :=
  if 0 < writer.cache.length then writer.flushCache.file else writer.file

def call : WriteCall → CachedWriter
  | .write bytes => writer.write bytes
  | .reset => writer.reset

end CachedWriter

/-- The call on a stream without a cache. -/
def OutputFile.call (file : OutputFile) : WriteCall → OutputFile
  | .write bytes => file.write bytes
  | .reset => { file with position := 0 }

namespace OutputFile

variable {file : OutputFile}

theorem write_nil (file : OutputFile) : file.write [] = file := by
  simp [write, patch]

theorem write_write (hplace : file.position ≤ file.bytes.length) (first second : List UInt8) :
    (file.write first).write second = file.write (first ++ second) := by
  simp only [write, patch_patch hplace, List.length_append, Nat.add_assoc]

theorem call_place (hplace : file.position ≤ file.bytes.length) (call : WriteCall) :
    (file.call call).position ≤ (file.call call).bytes.length := by
  cases call with
  | reset => exact Nat.zero_le _
  | write bytes =>
    simp only [OutputFile.call, write, patch, List.length_append, List.length_take]
    omega

end OutputFile

namespace CachedWriter

variable {writer : CachedWriter}

/-- The stream without a cache that a writer stands for. -/
def plain (writer : CachedWriter) : OutputFile := writer.file.write writer.cache

theorem close_eq (writer : CachedWriter) : writer.close = writer.plain := by
  unfold close plain flushCache
  cases hcache : writer.cache with
  | nil => simp [OutputFile.write_nil]
  | cons byte bytes => simp

theorem call_eq (hplace : writer.file.position ≤ writer.file.bytes.length) (call : WriteCall) :
    (writer.call call).plain = writer.plain.call call ∧
      (writer.call call).file.position ≤ (writer.call call).file.bytes.length := by
  have hflushed := OutputFile.call_place hplace (.write writer.cache)
  cases call with
  | reset => exact ⟨OutputFile.write_nil _, Nat.zero_le _⟩
  | write bytes =>
    simp only [CachedWriter.call, write]
    split
    · exact ⟨(OutputFile.write_write hplace _ _).symm, hplace⟩
    · exact ⟨OutputFile.write_nil _, OutputFile.call_place hflushed (.write bytes)⟩

end CachedWriter

/-- Reads of every sequence of sizes give what the plain file gives at the running offset, and
every sequence of writes and resets leaves the file that plain writes leave, whatever the size of
the cache. -/
theorem cached_streams_plain (cacheSize : Nat) :
    (∀ file sizes, (CachedReader.open file cacheSize).reads sizes = readsDirect file sizes) ∧
      ∀ calls : List WriteCall,
        (calls.foldl CachedWriter.call (CachedWriter.open cacheSize)).close =
          calls.foldl OutputFile.call ⟨[], 0⟩ := by
  refine ⟨fun file sizes => CachedReader.reads_open file cacheSize sizes, fun calls => ?_⟩
  have hrun : ∀ writer : CachedWriter, writer.file.position ≤ writer.file.bytes.length →
      (calls.foldl CachedWriter.call writer).plain = calls.foldl OutputFile.call writer.plain := by
    induction calls with
    | nil => exact fun _ _ => rfl
    | cons call calls ih =>
      intro writer hplace
      obtain ⟨hnext, hplaced⟩ := CachedWriter.call_eq hplace call
      rw [List.foldl_cons, List.foldl_cons, ih _ hplaced, hnext]
  rw [CachedWriter.close_eq, hrun _ (Nat.le_refl 0)]
  rfl

end SkipCell.DiskIndex

import SkipCell.Foundation.ByteCodec
import SkipCell.Foundation.Checks

/-! # Readers over byte sequences

A reader takes a prefix of the bytes that are left. `Reads reader bytes value`
says that the reader turns `bytes` into `value` whatever follows, and
`Determines reader encode` that it accepts nothing but encodings.
-/

namespace Foundation

universe u

variable {Failure : Type} {α β : Type}

abbrev ByteReader (Failure : Type) := StateT (List UInt8) (Except Failure)

/-- A little-endian word of `width` bytes. -/
def readWord (truncated : Failure) (width : Nat) : ByteReader Failure Nat := fun bytes =>
  if bytes.length < width then .error truncated
  else .ok (decodeLittle (bytes.take width), bytes.drop width)

/-- One value after another. -/
def readMany (reader : ByteReader Failure α) : Nat → ByteReader Failure (List α)
  | 0 => pure []
  | count + 1 => do
    let value ← reader
    let values ← readMany reader count
    pure (value :: values)

/-- A read that must use up all the bytes. -/
def readAll (reader : ByteReader Failure α) (trailing : Failure) (bytes : List UInt8) :
    Except Failure α :=
  match reader bytes with
  | .error failure => .error failure
  | .ok (value, []) => .ok value
  | .ok (_, _ :: _) => .error trailing

def Reads (reader : ByteReader Failure α) (bytes : List UInt8) (value : α) : Prop :=
  ∀ rest, reader (bytes ++ rest) = .ok (value, rest)

@[simp]
theorem Reads.pure (value : α) : Reads (Pure.pure value : ByteReader Failure α) [] value :=
  fun _ => rfl

section

variable {reader : ByteReader Failure α} {next : α → ByteReader Failure β}
  {first second : List UInt8} {value : α} {result : β} (hfirst : Reads reader first value)
include hfirst

theorem Reads.bind_iff :
    Reads (reader >>= next) (first ++ second) result ↔ Reads (next value) second result := by
  have hnext : ∀ rest, (reader >>= next) (first ++ second ++ rest) =
      next value (second ++ rest) := by
    intro rest
    change (reader (first ++ second ++ rest) >>= fun (value, rest) => next value rest) = _
    rw [List.append_assoc, hfirst]
    rfl
  simp only [Reads, hnext]

theorem Reads.bind (hsecond : Reads (next value) second result) :
    Reads (reader >>= next) (first ++ second) result :=
  hfirst.bind_iff.mpr hsecond

end

variable {reader : ByteReader Failure α} {bytes rest : List UInt8} {encode : α → List UInt8}

theorem Reads.map {value : α} (hreads : Reads reader bytes value) (convert : α → β) :
    Reads (convert <$> reader) bytes (convert value) := by
  intro rest
  change (reader (bytes ++ rest) >>= fun (value, rest) => Except.ok (convert value, rest)) = _
  rw [hreads]
  rfl

theorem Reads.word (truncated : Failure) {width value : Nat} (hvalue : value < 256 ^ width) :
    Reads (readWord truncated width) (encodeLittle width value) value := by
  intro rest
  have hlength := length_encodeLittle width value
  have hlong : ¬ (encodeLittle width value ++ rest).length < width := by
    rw [List.length_append, hlength]
    omega
  rw [readWord, if_neg hlong, List.take_left' hlength, List.drop_left' hlength,
    decodeLittle_encodeLittle_of_lt hvalue]

theorem Reads.many {values : List α}
    (hreads : ∀ value ∈ values, Reads reader (encode value) value) :
    Reads (readMany reader values.length) (values.flatMap encode) values := by
  induction values with
  | nil => exact .pure []
  | cons value values ih =>
    obtain ⟨hvalue, hvalues⟩ := List.forall_mem_cons.mp hreads
    rw [List.flatMap_cons, ← List.append_nil (values.flatMap encode)]
    exact hvalue.bind ((ih hvalues).bind (.pure (value :: values)))

theorem Reads.all {value : α} (hreads : Reads reader bytes value) (trailing : Failure) :
    readAll reader trailing bytes = .ok value := by
  have hread := hreads []
  rw [List.append_nil] at hread
  rw [readAll, hread]

theorem encode_injective (hreads : ∀ value, Reads reader (encode value) value) :
    Function.Injective encode := by
  intro first second hsame
  have hfirst := hreads first []
  rw [hsame, hreads second []] at hfirst
  exact (congrArg Prod.fst (Except.ok.inj hfirst)).symm

/-- What was read is the encoding of the value, up to `encode`. -/
def Determines (reader : ByteReader Failure α) (encode : α → List UInt8) : Prop :=
  ∀ bytes value rest, reader bytes = .ok (value, rest) → bytes = encode value ++ rest

theorem bind_eq_ok {next : α → ByteReader Failure β} {result : β}
    (hread : (reader >>= next) bytes = .ok (result, rest)) :
    ∃ value middle, reader bytes = .ok (value, middle) ∧ next value middle = .ok (result, rest) := by
  change (reader bytes >>= fun (value, rest) => next value rest) = _ at hread
  cases hfirst : reader bytes with
  | error failure =>
    rw [hfirst] at hread
    cases hread
  | ok outcome =>
    rw [hfirst] at hread
    exact ⟨outcome.1, outcome.2, rfl, hread⟩

theorem encodeLittle_decodeLittle (bytes : List UInt8) :
    encodeLittle bytes.length (decodeLittle bytes) = bytes := by
  induction bytes with
  | nil => rfl
  | cons byte bytes ih =>
    have hbyte := byte.toNat_lt
    have hquotient : (byte.toNat + 256 * decodeLittle bytes) / 256 = decodeLittle bytes := by
      omega
    have hlow : UInt8.ofNat (byte.toNat + 256 * decodeLittle bytes) = byte := by
      apply UInt8.toNat_inj.mp
      rw [UInt8.toNat_ofNat']
      omega
    rw [List.length_cons, decodeLittle, encodeLittle, hquotient, hlow, ih]

theorem readWord_eq_ok {truncated : Failure} {width value : Nat}
    (hread : readWord truncated width bytes = .ok (value, rest)) :
    bytes = encodeLittle width value ++ rest ∧ value < 256 ^ width := by
  unfold readWord at hread
  split at hread
  · cases hread
  · next hlong =>
      obtain ⟨rfl, rfl⟩ := Prod.mk.inj (Except.ok.inj hread)
      have hlength : (bytes.take width).length = width := by
        rw [List.length_take]
        omega
      have hencode := encodeLittle_decodeLittle (bytes.take width)
      rw [hlength] at hencode
      constructor
      · rw [hencode, List.take_append_drop]
      · have hbound := decodeLittle_lt (bytes.take width)
        rwa [hlength] at hbound

theorem Determines.word {truncated : Failure} {width : Nat} {ofNat : Nat → α} {toNat : α → Nat}
    (hround : ∀ value < 256 ^ width, toNat (ofNat value) = value) :
    Determines (ofNat <$> readWord truncated width) fun value =>
      encodeLittle width (toNat value) := by
  intro bytes value rest hread
  change (readWord _ width bytes >>= fun (word, rest) => Except.ok (ofNat word, rest)) = _ at hread
  obtain ⟨⟨word, middle⟩, hword, hresult⟩ := bind_ok.mp hread
  obtain ⟨rfl, rfl⟩ := Prod.mk.inj (Except.ok.inj hresult)
  obtain ⟨hbytes, hbound⟩ := readWord_eq_ok hword
  simpa only [hround word hbound] using hbytes

theorem Determines.many (hdetermines : Determines reader encode) {count : Nat} {values : List α}
    (hread : readMany reader count bytes = .ok (values, rest)) :
    bytes = values.flatMap encode ++ rest ∧ values.length = count := by
  induction count generalizing bytes values with
  | zero =>
    obtain ⟨rfl, rfl⟩ := Prod.mk.inj (Except.ok.inj hread)
    exact ⟨rfl, rfl⟩
  | succ count ih =>
    obtain ⟨value, middle, hvalue, hrest⟩ := bind_eq_ok hread
    obtain ⟨others, last, hothers, hpure⟩ := bind_eq_ok hrest
    obtain ⟨rfl, rfl⟩ := Prod.mk.inj (Except.ok.inj hpure)
    obtain ⟨hmiddle, hcount⟩ := ih hothers
    rw [hdetermines _ _ _ hvalue, hmiddle, List.flatMap_cons, List.append_assoc]
    exact ⟨rfl, congrArg Nat.succ hcount⟩

theorem length_readMany {count : Nat} {values : List α}
    (hread : readMany reader count bytes = .ok (values, rest)) :
    values.length = count := by
  induction count generalizing bytes rest values with
  | zero =>
    obtain ⟨rfl, -⟩ := Prod.mk.inj (Except.ok.inj hread)
    rfl
  | succ count ih =>
    obtain ⟨value, middle, -, hrest⟩ := bind_eq_ok hread
    obtain ⟨others, last, hothers, hpure⟩ := bind_eq_ok hrest
    obtain ⟨rfl, -⟩ := Prod.mk.inj (Except.ok.inj hpure)
    rw [List.length_cons, ih hothers]

theorem readAll_eq_ok {trailing : Failure} {value : α}
    (hread : readAll reader trailing bytes = .ok value) :
    reader bytes = .ok (value, []) := by
  unfold readAll at hread
  split at hread
  · cases hread
  · next found hfound => rw [hfound, Except.ok.inj hread]
  · cases hread

/-- The reader takes exactly `width` bytes, and accepts whatever they are. -/
structure FixedWidth (reader : ByteReader Failure α) (width : Nat) : Prop where
  accepts : ∀ bytes : List UInt8, bytes.length = width → ∃ value, Reads reader bytes value
  rejects : ∀ bytes : List UInt8, bytes.length < width → ∃ failure, reader bytes = .error failure

namespace FixedWidth

variable {reader : ByteReader Failure α} {width : Nat}

theorem pure (value : α) : FixedWidth (Pure.pure value : ByteReader Failure α) 0 where
  accepts bytes hlength := by
    obtain rfl := List.length_eq_zero_iff.mp hlength
    exact ⟨value, .pure value⟩
  rejects bytes hshort := absurd hshort (Nat.not_lt_zero _)

theorem reads (hreader : FixedWidth reader width) {bytes : List UInt8}
    (hfits : width ≤ bytes.length) :
    ∃ value, Reads reader (bytes.take width) value ∧
      reader bytes = .ok (value, bytes.drop width) := by
  obtain ⟨value, hvalue⟩ := hreader.accepts (bytes.take width) (List.length_take_of_le hfits)
  have hread := hvalue (bytes.drop width)
  rw [List.take_append_drop] at hread
  exact ⟨value, hvalue, hread⟩

theorem bind {next : α → ByteReader Failure β} {others : Nat} (hreader : FixedWidth reader width)
    (hnext : ∀ value, FixedWidth (next value) others) :
    FixedWidth (reader >>= next) (width + others) where
  accepts bytes hlength := by
    obtain ⟨value, hvalue, -⟩ := hreader.reads (show width ≤ bytes.length by omega)
    obtain ⟨result, hresult⟩ := (hnext value).accepts (bytes.drop width)
      (by rw [List.length_drop]; omega)
    rw [← List.take_append_drop width bytes]
    exact ⟨result, hvalue.bind hresult⟩
  rejects bytes hshort := by
    change ∃ failure, (reader bytes >>= fun (value, rest) => next value rest) = .error failure
    by_cases hfirst : bytes.length < width
    · obtain ⟨failure, hfailure⟩ := hreader.rejects bytes hfirst
      exact ⟨failure, by rw [hfailure]; rfl⟩
    · obtain ⟨value, -, hread⟩ := hreader.reads (Nat.not_lt.mp hfirst)
      obtain ⟨failure, hfailure⟩ := (hnext value).rejects (bytes.drop width)
        (by rw [List.length_drop]; omega)
      exact ⟨failure, by rw [hread]; exact hfailure⟩

theorem map (hreader : FixedWidth reader width) (convert : α → β) :
    FixedWidth (convert <$> reader) width where
  accepts bytes hlength := by
    obtain ⟨value, hvalue⟩ := hreader.accepts bytes hlength
    exact ⟨convert value, hvalue.map convert⟩
  rejects bytes hshort := by
    obtain ⟨failure, hfailure⟩ := hreader.rejects bytes hshort
    refine ⟨failure, ?_⟩
    change (reader bytes >>= fun (value, rest) => Except.ok (convert value, rest)) = _
    rw [hfailure]
    rfl

theorem word (truncated : Failure) (width : Nat) :
    FixedWidth (readWord truncated width) width where
  accepts bytes hlength := by
    have hvalue := decodeLittle_lt bytes
    have hreads := Reads.word truncated (hlength ▸ hvalue)
    rw [← hlength, encodeLittle_decodeLittle, hlength] at hreads
    exact ⟨_, hreads⟩
  rejects bytes hshort := ⟨truncated, if_pos hshort⟩

theorem many (hreader : FixedWidth reader width) (count : Nat) :
    FixedWidth (readMany reader count) (count * width) := by
  induction count with
  | zero =>
    rw [Nat.zero_mul]
    exact pure []
  | succ count ih =>
    have hwidth : (count + 1) * width = width + (count * width + 0) := by
      rw [Nat.succ_mul, Nat.add_comm, Nat.add_zero]
    rw [hwidth]
    exact hreader.bind fun value => ih.bind fun values => pure (value :: values)

theorem reads_alike (hreader : FixedWidth reader width) {first second : List UInt8}
    (hfits : width ≤ first.length) (hsame : second.take width = first.take width) :
    ∃ value, reader first = .ok (value, first.drop width) ∧
      reader second = .ok (value, second.drop width) := by
  obtain ⟨value, hvalue, hfirst⟩ := hreader.reads hfits
  refine ⟨value, hfirst, ?_⟩
  rw [← hsame] at hvalue
  have hsecond := hvalue (second.drop width)
  rwa [List.take_append_drop] at hsecond

end FixedWidth

/-- The reader never fails in one way. -/
def Avoids (failure : Failure) (reader : ByteReader Failure α) : Prop :=
  ∀ bytes, Ends failure (reader bytes)

namespace Avoids

variable {failure : Failure} {reader : ByteReader Failure α}

theorem pure (value : α) : Avoids failure (Pure.pure value : ByteReader Failure α) :=
  fun bytes => Ends.ok (value, bytes)

theorem throw {other : Failure} (hother : other ≠ failure) :
    Avoids failure (MonadExcept.throw other : ByteReader Failure α) :=
  fun _ => Ends.error hother

theorem bind {next : α → ByteReader Failure β} (hreader : Avoids failure reader)
    (hnext : ∀ value, Avoids failure (next value)) : Avoids failure (reader >>= next) :=
  fun bytes => Ends.bind (hreader bytes) fun outcome _ => hnext outcome.1 outcome.2

theorem map (hreader : Avoids failure reader) (convert : α → β) :
    Avoids failure (convert <$> reader) :=
  fun bytes => Ends.bind (hreader bytes) fun outcome _ => Ends.ok (convert outcome.1, outcome.2)

theorem word {truncated : Failure} (hother : truncated ≠ failure) (width : Nat) :
    Avoids failure (readWord truncated width) := by
  intro bytes
  unfold readWord
  split
  · exact Ends.error hother
  · exact Ends.ok _

end Avoids

end Foundation

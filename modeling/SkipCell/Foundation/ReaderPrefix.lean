import SkipCell.Foundation.ByteReader

/-! # Readers of a prefix

A reader of the first bytes of a file may be compared with a reader of the whole
file: `Prefigures first second` says that what `first` reads, `second` reads from the
same bytes, whatever follows them. `Yields reader property` says that every value
read has a property, and `Consumes reader property` that it has it together with the bytes
that were read.
-/

namespace Foundation

variable {Failure : Type} {α β : Type}

def Prefigures (first second : ByteReader Failure α) : Prop :=
  ∀ bytes value rest, first bytes = .ok (value, rest) →
    ∃ taken, bytes = taken ++ rest ∧ Reads second taken value

namespace Prefigures

theorem pure (value : α) :
    Prefigures (Pure.pure value : ByteReader Failure α) (Pure.pure value) := by
  intro bytes found rest hread
  obtain ⟨rfl, rfl⟩ := Prod.mk.inj (Except.ok.inj hread)
  exact ⟨[], rfl, .pure value⟩

theorem word (truncated : Failure) (width : Nat) :
    Prefigures (readWord truncated width) (readWord truncated width) := by
  intro bytes value rest hread
  obtain ⟨hbytes, hbound⟩ := readWord_eq_ok hread
  exact ⟨_, hbytes, .word truncated hbound⟩

theorem map {first second : ByteReader Failure α} (hreader : Prefigures first second)
    (convert : α → β) : Prefigures (convert <$> first) (convert <$> second) := by
  intro bytes result rest hread
  change (first bytes >>= fun (value, rest) => Except.ok (convert value, rest)) = _ at hread
  cases hfirst : first bytes with
  | error failure =>
    rw [hfirst] at hread
    cases hread
  | ok outcome =>
    rw [hfirst] at hread
    obtain ⟨rfl, rfl⟩ := Prod.mk.inj (Except.ok.inj hread)
    obtain ⟨taken, hbytes, hreads⟩ := hreader _ _ _ hfirst
    exact ⟨taken, hbytes, hreads.map convert⟩

theorem bind {first second : ByteReader Failure α} {next other : α → ByteReader Failure β}
    (hreader : Prefigures first second) (hnext : ∀ value, Prefigures (next value) (other value)) :
    Prefigures (first >>= next) (second >>= other) := by
  intro bytes result rest hread
  obtain ⟨value, middle, hvalue, hresult⟩ := bind_eq_ok hread
  obtain ⟨taken, rfl, htaken⟩ := hreader _ _ _ hvalue
  obtain ⟨more, rfl, hmore⟩ := hnext value _ _ _ hresult
  exact ⟨taken ++ more, (List.append_assoc _ _ _).symm, htaken.bind hmore⟩

end Prefigures

def Yields (reader : ByteReader Failure α) (property : α → Prop) : Prop :=
  ∀ bytes value rest, reader bytes = .ok (value, rest) → property value

theorem Yields.pure {property : α → Prop} {value : α} (hvalue : property value) :
    Yields (Pure.pure value : ByteReader Failure α) property := by
  intro bytes found rest hread
  obtain ⟨rfl, -⟩ := Prod.mk.inj (Except.ok.inj hread)
  exact hvalue

theorem Yields.bind {reader : ByteReader Failure α} {next : α → ByteReader Failure β}
    {property : β → Prop} (hnext : ∀ value, Yields (next value) property) :
    Yields (reader >>= next) property := by
  intro bytes result rest hread
  obtain ⟨value, middle, -, hresult⟩ := bind_eq_ok hread
  exact hnext value _ _ _ hresult

def Consumes (reader : ByteReader Failure α) (property : α → List UInt8 → Prop) : Prop :=
  ∀ bytes value rest, reader bytes = .ok (value, rest) →
    ∃ taken, bytes = taken ++ rest ∧ property value taken

namespace Consumes

variable {property : α → List UInt8 → Prop}

theorem pure {value : α} (hvalue : property value []) :
    Consumes (Pure.pure value : ByteReader Failure α) property := by
  intro bytes found rest hread
  obtain ⟨rfl, rfl⟩ := Prod.mk.inj (Except.ok.inj hread)
  exact ⟨[], rfl, hvalue⟩

theorem bind {first : ByteReader Failure β} {encode : β → List UInt8}
    {next : β → ByteReader Failure α} (hfirst : Determines first encode)
    (hnext : ∀ value, Consumes (next value) fun result taken =>
      property result (encode value ++ taken)) : Consumes (first >>= next) property := by
  intro bytes result rest hread
  obtain ⟨value, middle, hvalue, hresult⟩ := bind_eq_ok hread
  obtain ⟨taken, rfl, htaken⟩ := hnext value _ _ _ hresult
  exact ⟨encode value ++ taken, by rw [hfirst _ _ _ hvalue, List.append_assoc], htaken⟩

theorem determines {reader : ByteReader Failure α} {encode : α → List UInt8}
    (hreader : Consumes reader fun value taken => taken = encode value) :
    Determines reader encode := by
  intro bytes value rest hread
  obtain ⟨taken, hbytes, rfl⟩ := hreader _ _ _ hread
  exact hbytes

end Consumes

end Foundation

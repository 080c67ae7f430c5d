import Mathlib.Data.List.Basic
import Mathlib.Tactic.Ring

/-!
# Length-prefixed names

Byte strings that are put one after the other can only be taken apart again if
each says where it ends.  A frame writes the length of a name in a fixed number
of big-endian bytes before the name, so whatever follows, frames of different
names never agree.
-/

namespace FixedMultisig.Framing

/-- The lowest bytes of a number, the lowest first. -/
def bytesLE : ℕ → ℕ → List UInt8
  | 0, _ => []
  | width + 1, value => UInt8.ofNat value :: bytesLE width (value / 256)

/-- The lowest bytes of a number, the highest first. -/
def bytesBE (width value : ℕ) : List UInt8 := (bytesLE width value).reverse

@[simp]
theorem length_bytesLE (width value : ℕ) :
    (bytesLE width value).length = width := by
  induction width generalizing value with
  | zero => rfl
  | succ width ih => simp [bytesLE, ih]

@[simp]
theorem length_bytesBE (width value : ℕ) :
    (bytesBE width value).length = width := by
  simp [bytesBE]

/-- A number that fits is determined by its bytes. -/
theorem bytesLE_inj {width value value' : ℕ} (hvalue : value < 256 ^ width)
    (hvalue' : value' < 256 ^ width)
    (hbytes : bytesLE width value = bytesLE width value') : value = value' := by
  induction width generalizing value value' with
  | zero =>
      rw [pow_zero] at hvalue hvalue'
      omega
  | succ width ih =>
      rw [pow_succ] at hvalue hvalue'
      rw [bytesLE, bytesLE, List.cons.injEq] at hbytes
      obtain ⟨hhead, htail⟩ := hbytes
      have hlow : value % 256 = value' % 256 := by
        have hnat := congrArg UInt8.toNat hhead
        simpa using hnat
      have hhigh : value / 256 = value' / 256 :=
        ih (by omega) (by omega) htail
      omega

theorem bytesBE_inj {width value value' : ℕ} (hvalue : value < 256 ^ width)
    (hvalue' : value' < 256 ^ width)
    (hbytes : bytesBE width value = bytesBE width value') : value = value' := by
  apply bytesLE_inj hvalue hvalue'
  exact List.reverse_injective hbytes

/-- A name behind its length. -/
def frame (width : ℕ) (name : List UInt8) : List UInt8 :=
  bytesBE width name.length ++ name

/-- A frame ends where its length says, so what follows it can be told from
it. -/
theorem frame_append_inj {width : ℕ} {name name' rest rest' : List UInt8}
    (hname : name.length < 256 ^ width) (hname' : name'.length < 256 ^ width)
    (heq : frame width name ++ rest = frame width name' ++ rest') :
    name = name' ∧ rest = rest' := by
  rw [frame, frame, List.append_assoc, List.append_assoc] at heq
  obtain ⟨hlength, htail⟩ := List.append_inj heq (by simp)
  exact List.append_inj htail (bytesBE_inj hname hname' hlength)

end FixedMultisig.Framing

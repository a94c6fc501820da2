import ConsoleVideo.Word

/-!
# The main memory

Two megabytes, read and written in aligned words; addresses wrap around its end.

* `Ram.slot` — the word that an address names;
* `Ram.read`, `Ram.write` — one word, with `read_write`.
-/

namespace ConsoleVideo

/-- The number of words. -/
abbrev Ram.size : Nat := 524288

/-- The main memory. -/
structure Ram where
  words : Vector Word Ram.size
  deriving DecidableEq

namespace Ram

/-- Zero everywhere. -/
def blank : Ram := ⟨Vector.replicate size 0⟩

/-- The word that an address names: its lowest two bits and what lies beyond the memory do not
count. -/
def slot (address : Word) : Fin size :=
  ⟨address.toNat / 4 % size, Nat.mod_lt _ (by decide)⟩

/-- The address in its lowest form. -/
def align (address : Word) : Word :=
  UInt32.ofNat (4 * (slot address).val)

def read (ram : Ram) (address : Word) : Word :=
  ram.words[slot address]

def write (ram : Ram) (address w : Word) : Ram :=
  ⟨ram.words.set (slot address) w⟩

theorem read_write (ram : Ram) (address other w : Word) :
    (ram.write address w).read other = if slot address = slot other then w else ram.read other := by
  simp [read, write, Vector.getElem_set, Fin.ext_iff]

theorem slot_align (address : Word) : slot (align address) = slot address := by
  have := (slot address).isLt
  unfold size at this
  apply Fin.ext
  show (UInt32.ofNat (4 * (slot address).val)).toNat / 4 % size = _
  rw [UInt32.toNat_ofNat']
  unfold size
  omega

end Ram

end ConsoleVideo

import ConsoleVideo.Word

/-!
# Pixels

The picture memory keeps every pixel in two forms.

* `Deep` — eight bits per channel, red lowest, with the mask flag at bit 24; all colour arithmetic
  happens here;
* `Native` — five bits per channel with the mask flag at bit 15, the form the processor and the
  texture sampler read;
* `Deep.ofChannels` — a pixel from its channels, with `channels_ofChannels`;
* `Deep.pack` and `Native.expand` — from one to the other; `pack_expand` says that a native pixel
  survives the detour, while packing keeps only the upper five bits of a channel;
* `Deep.modulate` — a texel tinted by a base colour;
* `BlendMode.mix` — the four semi-transparency formulas.
-/

namespace ConsoleVideo

/-- A pixel with eight bits per channel and the mask flag at bit 24. -/
abbrev Deep := UInt32

/-- A pixel with five bits per channel and the mask flag at bit 15. -/
abbrev Native := UInt16

/-! ### Channels -/

def Deep.red (c : Deep) : Nat := c.toNat % 256

def Deep.green (c : Deep) : Nat := c.toNat / 256 % 256

def Deep.blue (c : Deep) : Nat := c.toNat / 65536 % 256

/-- The mask flag, as a digit. -/
def Deep.mask (c : Deep) : Nat := c.toNat / 16777216 % 2

def Deep.isMasked (c : Deep) : Bool := Deep.mask c == 1

def Native.isMasked (n : Native) : Bool := n.toNat / 32768 == 1

/-- The unmasked pixel with the given channels. -/
def Deep.ofChannels (red green blue : Nat) : Deep :=
  UInt32.ofNat (red + 256 * green + 65536 * blue)

theorem Deep.channels_ofChannels {red green blue : Nat} (hred : red < 256) (hgreen : green < 256)
    (hblue : blue < 256) :
    Deep.red (Deep.ofChannels red green blue) = red ∧
      Deep.green (Deep.ofChannels red green blue) = green ∧
      Deep.blue (Deep.ofChannels red green blue) = blue := by
  unfold Deep.red Deep.green Deep.blue Deep.ofChannels
  rw [UInt32.toNat_ofNat']
  omega

/-- The pixel of a word: colour and mask flag, whatever the upper bits say. -/
def Deep.ofWord (w : Word) : Deep :=
  UInt32.ofNat (w.toNat % 33554432)

/-- The colour without its mask flag. -/
def Deep.color (c : Deep) : Deep :=
  UInt32.ofNat (c.toNat % 16777216)

/-- The colour with the mask flag as given. -/
def Deep.withMask (c : Deep) (mask : Bool) : Deep :=
  UInt32.ofNat (c.toNat % 16777216 + if mask then 16777216 else 0)

/-- The pixel with its mask flag raised. -/
def Deep.raiseMask (c : Deep) : Deep :=
  if Deep.isMasked c then c else c + 16777216

/-- The native pixel with its mask flag raised where `force` says so. -/
def Native.forceMask (n : Native) (force : Bool) : Native :=
  if force then UInt16.ofNat (n.toNat % 32768 + 32768) else n

/-! ### From one form to the other -/

/-- Keeps the upper five bits of each channel, and the mask flag. -/
def Deep.pack (c : Deep) : Native :=
  UInt16.ofNat (Deep.red c / 8 + 32 * (Deep.green c / 8) + 1024 * (Deep.blue c / 8) +
    32768 * Deep.mask c)

/-- Puts each channel into the upper five bits, with zeros below. -/
def Native.expand (n : Native) : Deep :=
  UInt32.ofNat (8 * (n.toNat % 32) + 2048 * (n.toNat / 32 % 32) +
    524288 * (n.toNat / 1024 % 32) + 16777216 * (n.toNat / 32768))

theorem toNat_expand (n : Native) :
    (Native.expand n).toNat = 8 * (n.toNat % 32) + 2048 * (n.toNat / 32 % 32) +
      524288 * (n.toNat / 1024 % 32) + 16777216 * (n.toNat / 32768) := by
  have := n.toNat_lt
  unfold Native.expand
  rw [UInt32.toNat_ofNat']
  omega

/-- The native pixel with the given five-bit channels. -/
theorem pack_of_channels {c : Deep} {r g b m : Nat} (hr : r < 32) (hg : g < 32) (hb : b < 32)
    (hm : m < 2) (h : c.toNat = 8 * r + 2048 * g + 524288 * b + 16777216 * m) :
    (Deep.pack c).toNat = r + 32 * g + 1024 * b + 32768 * m := by
  have red : Deep.red c / 8 = r := by unfold Deep.red; omega
  have green : Deep.green c / 8 = g := by unfold Deep.green; omega
  have blue : Deep.blue c / 8 = b := by unfold Deep.blue; omega
  have mask : Deep.mask c = m := by unfold Deep.mask; omega
  unfold Deep.pack
  rw [red, green, blue, mask, UInt16.toNat_ofNat']
  omega

theorem pack_expand (n : Native) : Deep.pack (Native.expand n) = n := by
  have range := n.toNat_lt
  apply UInt16.toNat_inj.1
  rw [pack_of_channels (by omega) (by omega) (by omega) (by omega) (toNat_expand n)]
  omega

/-! ### Colour arithmetic -/

/-- Each channel of the texel scaled by `base / 128` and kept below 256.  What lies above the
colour, the mask flag with it, passes through. -/
def Deep.modulate (base texel : Deep) : Deep :=
  let scaled := fun b t => min (b * t / 128) 255
  UInt32.ofNat (texel.toNat / 16777216 * 16777216 +
    (scaled (Deep.red base) (Deep.red texel) +
      256 * scaled (Deep.green base) (Deep.green texel) +
      65536 * scaled (Deep.blue base) (Deep.blue texel)))

/-- How a semi-transparent pixel combines with what lies behind it. -/
inductive BlendMode where
  | average
  | add
  | subtract
  | addQuarter
  deriving DecidableEq

namespace BlendMode

/-- The mode that the low two bits of a number select. -/
def ofCode (n : Nat) : BlendMode :=
  match n % 4 with
  | 0 => average
  | 1 => add
  | 2 => subtract
  | _ => addQuarter

/-- The two bits that select the mode. -/
def code : BlendMode → Nat
  | average => 0
  | add => 1
  | subtract => 2
  | addQuarter => 3

@[simp] theorem ofCode_code (m : BlendMode) : ofCode m.code = m := by
  cases m <;> rfl

@[simp] theorem code_ofCode (n : Nat) : (ofCode n).code = n % 4 := by
  have : n % 4 = 0 ∨ n % 4 = 1 ∨ n % 4 = 2 ∨ n % 4 = 3 := by omega
  rcases this with h | h | h | h <;> simp [ofCode, code, h]

/-- One channel, with `back` behind `front`. -/
def channel (m : BlendMode) (back front : Nat) : Nat :=
  match m with
  | average => (back + front) / 2
  | add => min (back + front) 255
  | subtract => back - front
  | addQuarter => min (back + front / 4) 255

/-- The unmasked colour seen where `front` lies over `back`. -/
def mix (m : BlendMode) (back front : Deep) : Deep :=
  Deep.ofChannels (m.channel (Deep.red back) (Deep.red front))
    (m.channel (Deep.green back) (Deep.green front))
    (m.channel (Deep.blue back) (Deep.blue front))

end BlendMode

end ConsoleVideo

import ScatterGather.Stream

/-!
# ScatterGather.Proofs.Block — what a descriptor says, and what a block was asked to be

A `Block` is one accepted request as a controller carries it out: where it reads, where it writes,
how many elements of which size, and which side stays put. A descriptor holds a block together with
two things that belong to the chain and not to the block, its link and its completion interrupt.
`Descriptor.body` is the descriptor without these two; it decides the block (`block_body`), and
neither linking nor arming changes it (`body_link`, `body_arm`).

`block_controlWord` says that programming a request and reading it back gives the request, for every
count of elements that fits a descriptor, the largest one included.
-/

namespace ScatterGather

/-- One block of a transfer, as a controller carries it out. -/
structure Block where
  source : Nat
  destination : Nat
  elements : Nat
  elementBytes : Nat
  sourceFixed : Bool
  destinationFixed : Bool
  deriving DecidableEq

/-- The block that a request for so many elements stands for under these settings. -/
def TransferSettings.block (s : TransferSettings) (destination source elements : Nat) : Block where
  source := source
  destination := destination
  elements := elements
  elementBytes := s.width.bytes
  sourceFixed := !s.sourceIncrement
  destinationFixed := !s.destinationIncrement

/-! ## Words and masks -/

theorem and_or_mask (a b mask : UInt32) : (a ||| b) &&& mask = (a &&& mask) ||| (b &&& mask) := by
  apply UInt32.toBitVec_inj.1
  simp only [UInt32.toBitVec_and, UInt32.toBitVec_or]
  exact BitVec.and_or_distrib_right

namespace Descriptor

/-- Arming and disarming leave every field alone whose mask does not meet the interrupt bit. -/
theorem armed_and (control mask : UInt32) (on : Bool)
    (hset : Control.interruptOnComplete &&& mask = 0)
    (hclear : ~~~Control.interruptOnComplete &&& mask = mask) :
    armed control on &&& mask = control &&& mask := by
  cases on
  · show control &&& ~~~Control.interruptOnComplete &&& mask = control &&& mask
    rw [UInt32.and_assoc, hclear]
  · show (control ||| Control.interruptOnComplete) &&& mask = control &&& mask
    rw [and_or_mask, hset, UInt32.or_zero]

theorem armed_armed_false (control : UInt32) (on : Bool) :
    armed (armed control on) false = armed control false := by
  cases on
  · show control &&& ~~~Control.interruptOnComplete &&& ~~~Control.interruptOnComplete = _
    rw [UInt32.and_assoc, UInt32.and_self]
    rfl
  · show (control ||| Control.interruptOnComplete) &&& ~~~Control.interruptOnComplete = _
    rw [and_or_mask]
    show (control &&& ~~~Control.interruptOnComplete) ||| 0 = _
    rw [UInt32.or_zero]
    rfl

/-- A control word with the interrupt bit in it is an armed one. -/
theorem interrupts_or (d : Descriptor) {control : UInt32}
    (h : d.control = control ||| Control.interruptOnComplete) : d.interrupts = true := by
  show (d.control &&& Control.interruptOnComplete != 0) = true
  rw [h, and_or_mask, UInt32.and_self, bne_iff_ne]
  intro hz
  have hbit := (UInt32.or_eq_zero_iff.mp hz).2
  revert hbit
  decide

theorem interrupts_armed (d : Descriptor) :
    { d with control := armed d.control true }.interrupts = true :=
  interrupts_or _ rfl

/-! ## Bodies and blocks -/

/-- The block that a descriptor holds. -/
def block (d : Descriptor) : Block where
  source := d.source
  destination := d.destination
  elements := d.elements
  elementBytes := d.elementBytes
  sourceFixed := d.sourceFixed
  destinationFixed := d.destinationFixed

/-- A descriptor without its link and its completion interrupt. -/
def body (d : Descriptor) : Descriptor :=
  { d with control := armed d.control false, next := 0 }

@[simp] theorem body_link (d : Descriptor) (next : Nat) : { d with next }.body = d.body := rfl

@[simp] theorem body_arm (d : Descriptor) (on : Bool) :
    { d with control := armed d.control on }.body = d.body := by
  simp only [body, armed_armed_false]

theorem block_body (d : Descriptor) : d.body.block = d.block := by
  have hcount := armed_and d.control Control.countMask false (by decide) (by decide)
  have hwidth := armed_and d.control Control.widthMask false (by decide) (by decide)
  have hsource := armed_and d.control Control.sourceFixed false (by decide) (by decide)
  have hdestination := armed_and d.control Control.destinationFixed false (by decide) (by decide)
  simp only [block, body, elements, elementBytes, sourceFixed, destinationFixed,
    Control.decodeCount, hcount, hwidth, hsource, hdestination]

theorem block_congr {d d' : Descriptor} (h : d.body = d'.body) : d.block = d'.block := by
  rw [← block_body d, h, block_body d']

end Descriptor

/-! ## Programming a request and reading it back -/

namespace Stream

theorem and_controlWord (s : Stream) (elements : Nat) (mask : UInt32)
    (hmask : Control.interruptOnComplete &&& mask = 0) :
    s.controlWord elements &&& mask =
      (s.template &&& mask) |||
        ((UInt32.ofNat elements - 1) &&& (Control.countMask &&& mask)) := by
  -- whether the block is armed does not show under the mask
  have hirq : (if s.wantsInterrupt true then Control.interruptOnComplete else 0) &&& mask = 0 := by
    split
    · exact hmask
    · exact UInt32.zero_and
  rw [controlWord, and_or_mask, and_or_mask, hirq, UInt32.or_zero, Control.encodeCount,
    UInt32.and_assoc]

/-- The count field of a control word gives back every count that a descriptor can have. -/
theorem decodeCount_encodeCount {n : Nat} (hpos : 0 < n) (hmax : n ≤ maxTransfer) :
    (((UInt32.ofNat n - 1) &&& Control.countMask) + 1).toNat = n := by
  have hn : n ≤ 65536 := hmax
  have hmod : (UInt32.ofNat n).toNat = n := by
    rw [UInt32.toNat_ofNat']
    omega
  have hsub : (UInt32.ofNat n - 1).toNat = n - 1 := by
    rw [UInt32.toNat_sub_of_le _ _ (by rw [UInt32.le_iff_toNat_le, hmod]; exact hpos), hmod]
    rfl
  -- one less than the largest count is the largest number that the field holds
  have hand : ((UInt32.ofNat n - 1) &&& Control.countMask).toNat = n - 1 := by
    rw [UInt32.toNat_and, hsub]
    show (n - 1) &&& (2 ^ 16 - 1) = n - 1
    rw [Nat.and_two_pow_sub_one_eq_mod, Nat.mod_eq_of_lt (by omega)]
  rw [UInt32.toNat_add, hand]
  show (n - 1 + 1) % 4294967296 = n
  omega

theorem controlTemplate_fields (t : TransferSettings) :
    t.controlTemplate &&& Control.countMask = 0 ∧
      (1 <<< ((t.controlTemplate &&& Control.widthMask) >>> Control.widthShift).toNat) =
        t.width.bytes ∧
      (t.controlTemplate &&& Control.sourceFixed != 0) = !t.sourceIncrement ∧
      (t.controlTemplate &&& Control.destinationFixed != 0) = !t.destinationIncrement := by
  obtain ⟨width, burst, source, destination, priority⟩ := t
  cases width <;> cases burst <;> cases source <;> cases destination <;> cases priority <;> decide

/-- The settings fix nothing outside their own fields. -/
theorem controlTemplate_own (t : TransferSettings) :
    t.controlTemplate &&& Control.templateMask = t.controlTemplate := by
  obtain ⟨width, burst, source, destination, priority⟩ := t
  cases width <;> cases burst <;> cases source <;> cases destination <;> cases priority <;> decide

/-- A request that is programmed into a descriptor reads back as it was made. -/
theorem block_controlWord (s : Stream) (ht : s.template = s.config.settings.controlTemplate)
    {elements : Nat} (hpos : 0 < elements) (hmax : elements ≤ maxTransfer)
    (source destination next : Nat) :
    Descriptor.block { source, destination, control := s.controlWord elements, next } =
      s.config.settings.block destination source elements := by
  obtain ⟨hcount, hwidth, hsource, hdestination⟩ := controlTemplate_fields s.config.settings
  -- what the count does not meet comes from the template alone
  have hword (mask : UInt32) (hmask : Control.interruptOnComplete &&& mask = 0)
      (hdisjoint : Control.countMask &&& mask = 0) :
      s.controlWord elements &&& mask = s.config.settings.controlTemplate &&& mask := by
    rw [and_controlWord s elements mask hmask, hdisjoint, UInt32.and_zero, UInt32.or_zero, ht]
  have helements : s.controlWord elements &&& Control.countMask =
      (UInt32.ofNat elements - 1) &&& Control.countMask := by
    rw [and_controlWord s elements _ (by decide), ht, hcount, UInt32.zero_or]
    rfl
  simp only [Descriptor.block, Descriptor.elements, Descriptor.elementBytes, Descriptor.sourceFixed,
    Descriptor.destinationFixed, Control.decodeCount, TransferSettings.block, helements,
    hword Control.widthMask (by decide) (by decide),
    hword Control.sourceFixed (by decide) (by decide),
    hword Control.destinationFixed (by decide) (by decide), hwidth, hsource, hdestination,
    decodeCount_encodeCount hpos hmax]

/-- A new block is armed if the completion of the last block is wanted. -/
theorem interrupts_controlWord (s : Stream)
    (ht : s.template = s.config.settings.controlTemplate)
    (elements source destination next : Nat) :
    Descriptor.interrupts { source, destination, control := s.controlWord elements, next } =
      s.wantsInterrupt true := by
  have htemplate : s.template &&& Control.interruptOnComplete = 0 := by
    rw [ht, ← controlTemplate_own, UInt32.and_assoc]
    exact UInt32.and_zero
  have hcount : Control.encodeCount (UInt32.ofNat elements) &&&
      Control.interruptOnComplete = 0 := by
    rw [Control.encodeCount, UInt32.and_assoc]
    exact UInt32.and_zero
  show (s.controlWord elements &&& Control.interruptOnComplete != 0) = _
  rw [controlWord, and_or_mask, and_or_mask, htemplate, hcount, UInt32.zero_or, UInt32.zero_or]
  cases s.wantsInterrupt true <;> rfl

end Stream

end ScatterGather

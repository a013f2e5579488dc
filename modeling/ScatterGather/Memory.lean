import ScatterGather.Descriptor

/-!
# ScatterGather.Memory — bytes and descriptors in main memory

Data lives in a byte memory, descriptors in a table of their own. Both are finite: a read outside
gives zero (or an empty descriptor), a write outside does nothing, and `allocate` adds fresh cells
at the end. An address of a byte is its index; an address of a descriptor counts from
`DescriptorTable.origin` in steps of `Descriptor.size`, so that zero is never the address of one.
-/

namespace ScatterGather

/-- Byte memory that blocks are moved in. -/
structure Memory where
  bytes : Array UInt8 := #[]

namespace Memory

def read (m : Memory) (address : Nat) : UInt8 :=
  m.bytes.getD address 0

def write (m : Memory) (address : Nat) (value : UInt8) : Memory :=
  ⟨m.bytes.setIfInBounds address value⟩

@[simp] theorem size_write (m : Memory) (address : Nat) (value : UInt8) :
    (m.write address value).bytes.size = m.bytes.size := by
  simp [write]

theorem read_write (m : Memory) (address other : Nat) (value : UInt8) :
    (m.write address value).read other =
      if address = other ∧ address < m.bytes.size then value else m.read other := by
  simp only [read, write, Array.getD_eq_getD_getElem?, Array.getElem?_setIfInBounds]
  by_cases h : address = other
  · subst h
    by_cases hb : address < m.bytes.size <;> simp [hb]
  · simp [h]

/-- The `length` bytes from an address up. -/
def readList (m : Memory) (address length : Nat) : List UInt8 :=
  (List.range length).map fun i => m.read (address + i)

/-- Writes bytes from an address up. -/
def writeList (m : Memory) (address : Nat) : List UInt8 → Memory
  | [] => m
  | value :: rest => (m.write address value).writeList (address + 1) rest

/-- Fresh zero bytes at the end, and the address of the first. -/
def allocate (m : Memory) (length : Nat) : Nat × Memory :=
  (m.bytes.size, ⟨m.bytes ++ Array.replicate length 0⟩)

/-- Copies one element: all its bytes are read before the first is written. -/
def copy (m : Memory) (source destination width : Nat) : Memory :=
  m.writeList destination (m.readList source width)

/-- Copies `count` elements of a block in ascending order, starting at element `first`. An element
that an earlier one overwrote is copied as overwritten. -/
def copyElements (m : Memory) (d : Descriptor) (first : Nat) : Nat → Memory
  | 0 => m
  | count + 1 =>
    (m.copy (d.sourceOf first) (d.destinationOf first) d.elementBytes).copyElements d
      (first + 1) count

/-- A copy can be made in two parts. -/
theorem copyElements_add (m : Memory) (d : Descriptor) (first count more : Nat) :
    m.copyElements d first (count + more) =
      (m.copyElements d first count).copyElements d (first + count) more := by
  induction count generalizing m first with
  | zero => simp [copyElements]
  | succ count ih =>
    rw [Nat.add_right_comm, copyElements, copyElements, ih]
    congr 1
    omega

end Memory

/-- The descriptors in main memory. -/
structure DescriptorTable where
  cells : Array Descriptor := #[]

namespace DescriptorTable

/-- The address of the first descriptor of a table. -/
def origin : Nat := 0x6A000000

/-- Cells left free behind every pool, so that an address computed a little past one pool lies in no
other. -/
def guardCells : Nat := 64

/-- The address of a cell. -/
def address (cell : Nat) : Nat :=
  origin + cell * Descriptor.size

/-- The cell at an address, if one can start there. -/
def cellAt (a : Nat) : Option Nat :=
  if a < origin ∨ (a - origin) % Descriptor.size ≠ 0 then none
  else some ((a - origin) / Descriptor.size)

theorem cellAt_address (cell : Nat) : cellAt (address cell) = some cell := by
  simp [cellAt, address, Descriptor.size]

/-- Two addresses of one cell are one address. -/
theorem eq_address_of_cellAt {a cell : Nat} (h : cellAt a = some cell) : a = address cell := by
  unfold cellAt at h
  by_cases hc : a < origin ∨ (a - origin) % Descriptor.size ≠ 0
  · rw [if_pos hc] at h
    cases h
  · rw [if_neg hc] at h
    cases h
    simp only [address, Descriptor.size] at *
    omega

def read (t : DescriptorTable) (a : Nat) : Descriptor :=
  match cellAt a with
  | none => {}
  | some cell => t.cells.getD cell {}

/-- Puts a descriptor into the cell at an address. -/
def put (t : DescriptorTable) (a : Nat) (d : Descriptor) : DescriptorTable :=
  match cellAt a with
  | none => t
  | some cell => ⟨t.cells.setIfInBounds cell d⟩

/-- Writes one field of the descriptor at an address. -/
def write (t : DescriptorTable) (a : Nat) (w : Descriptor.Write) : DescriptorTable :=
  t.put a ((t.read a).apply w)

@[simp] theorem size_put (t : DescriptorTable) (a : Nat) (d : Descriptor) :
    (t.put a d).cells.size = t.cells.size := by
  unfold put
  split <;> simp

theorem read_put_self (t : DescriptorTable) {cell : Nat} (h : cell < t.cells.size)
    (d : Descriptor) :
    (t.put (address cell) d).read (address cell) = d := by
  simp [read, put, cellAt_address, Array.getD_eq_getD_getElem?, h]

theorem read_put_of_ne (t : DescriptorTable) {a b : Nat} (h : a ≠ b) (d : Descriptor) :
    (t.put a d).read b = t.read b := by
  unfold put
  cases ha : cellAt a with
  | none => rfl
  | some i =>
    unfold read
    cases hb : cellAt b with
    | none => rfl
    | some j =>
      have hne : i ≠ j := fun hij =>
        h (by rw [eq_address_of_cellAt ha, eq_address_of_cellAt hb, hij])
      simp [Array.getD_eq_getD_getElem?, hne]

@[simp] theorem size_write (t : DescriptorTable) (a : Nat) (w : Descriptor.Write) :
    (t.write a w).cells.size = t.cells.size :=
  size_put t a _

theorem read_write_self (t : DescriptorTable) {cell : Nat} (h : cell < t.cells.size)
    (w : Descriptor.Write) :
    (t.write (address cell) w).read (address cell) = (t.read (address cell)).apply w :=
  read_put_self t h _

theorem read_write_of_ne (t : DescriptorTable) {a b : Nat} (h : a ≠ b) (w : Descriptor.Write) :
    (t.write a w).read b = t.read b :=
  read_put_of_ne t h _

/-- Copies a row of descriptors, in ascending order. -/
def copyRow (t : DescriptorTable) (source target : Nat) : (count : Nat) → DescriptorTable
  | 0 => t
  | count + 1 =>
    (t.put target (t.read source)).copyRow (source + Descriptor.size)
      (target + Descriptor.size) count

/-- Fresh empty cells at the end, and the address of the first. -/
def allocate (t : DescriptorTable) (count : Nat) : Nat × DescriptorTable :=
  (address t.cells.size, ⟨t.cells ++ Array.replicate (count + guardCells) ({} : Descriptor)⟩)

end DescriptorTable

end ScatterGather

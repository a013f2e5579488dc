import ScatterGather.Proofs.Block
import ScatterGather.Proofs.Scene

/-!
# ScatterGather.Proofs.Copying — what a copy writes, byte by byte

A copy is known by its writes: which byte goes where, in which order. `Memory.elementWrites` lists
them, and `copyElements_eq` says that a copy of elements does these writes and nothing else, also
where it runs over its own source.

Two kinds of blocks of single bytes never run over their source, and their writes are simple. Bytes
that go **to a register** are the bytes of the source, all written to one place
(`elementWrites_toRegister`). Bytes that come **from a register** are one byte over and over, placed
side by side (`elementWrites_fromRegister`).
-/

namespace ScatterGather

namespace Memory

variable (m : Memory)

/-! ## Stretches of memory -/

theorem allocate_le (length : Nat) :
    (m.allocate length).1 + length ≤ (m.allocate length).2.bytes.size := by
  show m.bytes.size + length ≤ (m.bytes ++ Array.replicate length 0).size
  exact Nat.le_of_eq (by rw [Array.size_append, Array.size_replicate])

@[simp] theorem length_readList (address length : Nat) :
    (m.readList address length).length = length := by
  simp [readList]

theorem getElem_readList {address length i : Nat} (h : i < (m.readList address length).length) :
    (m.readList address length)[i] = m.read (address + i) := by
  simp [readList]

theorem readList_congr {m m' : Memory} {address length : Nat}
    (h : ∀ i < length, m'.read (address + i) = m.read (address + i)) :
    m'.readList address length = m.readList address length := by
  apply List.map_congr_left
  intro i hi
  exact h i (List.mem_range.mp hi)

theorem readList_add (address length more : Nat) :
    m.readList address (length + more) =
      m.readList address length ++ m.readList (address + length) more := by
  simp only [readList, List.range_add, List.map_append, List.map_map]
  congr 1
  apply List.map_congr_left
  intro i _
  exact congrArg m.read (Nat.add_assoc ..).symm

/-- A stretch without its first bytes is a stretch. -/
theorem drop_readList (address : Nat) {length count : Nat} (h : count ≤ length) :
    (m.readList address length).drop count = m.readList (address + count) (length - count) := by
  obtain ⟨more, rfl⟩ := Nat.exists_eq_add_of_le h
  rw [readList_add, List.drop_left' (m.length_readList ..), Nat.add_sub_cancel_left]

theorem take_readList (address : Nat) {length count : Nat} (h : count ≤ length) :
    (m.readList address length).take count = m.readList address count := by
  obtain ⟨more, rfl⟩ := Nat.exists_eq_add_of_le h
  rw [readList_add, List.take_left' (m.length_readList ..)]

/-! ## Writes in order -/

/-- Makes writes of single bytes, in order. -/
def writeEach (ws : List (Nat × UInt8)) : Memory :=
  ws.foldl (fun m w => m.write w.1 w.2) m

theorem writeEach_append (ws more : List (Nat × UInt8)) :
    m.writeEach (ws ++ more) = (m.writeEach ws).writeEach more :=
  List.foldl_append

@[simp] theorem size_writeEach (ws : List (Nat × UInt8)) :
    (m.writeEach ws).bytes.size = m.bytes.size := by
  induction ws generalizing m with
  | nil => rfl
  | cons w ws ih => exact (ih (m.write w.1 w.2)).trans (m.size_write w.1 w.2)

/-- Writes leave alone what none of them goes to. -/
theorem read_writeEach_of_ne {ws : List (Nat × UInt8)} {a : Nat} (h : ∀ w ∈ ws, w.1 ≠ a) :
    (m.writeEach ws).read a = m.read a := by
  induction ws generalizing m with
  | nil => rfl
  | cons w ws ih =>
    have hrest : ∀ w' ∈ ws, w'.1 ≠ a := by
      intro w' hw'
      exact h w' (List.mem_cons_of_mem w hw')
    apply (ih (m.write w.1 w.2) hrest).trans
    rw [read_write, if_neg fun hw => h w List.mem_cons_self hw.1]

/-- Bytes side by side, from an address up. -/
def placed (address : Nat) : List UInt8 → List (Nat × UInt8)
  | [] => []
  | value :: rest => (address, value) :: placed (address + 1) rest

theorem writeList_eq (address : Nat) (data : List UInt8) :
    m.writeList address data = m.writeEach (placed address data) := by
  induction data generalizing m address with
  | nil => rfl
  | cons value rest ih => exact ih (m.write address value) (address + 1)

@[simp] theorem map_snd_placed (address : Nat) (data : List UInt8) :
    (placed address data).map Prod.snd = data := by
  induction data generalizing address with
  | nil => rfl
  | cons value rest ih => rw [placed, List.map_cons, ih]

theorem mem_placed {address : Nat} {data : List UInt8} {w : Nat × UInt8}
    (h : w ∈ placed address data) : address ≤ w.1 ∧ w.1 < address + data.length := by
  induction data generalizing address with
  | nil => cases h
  | cons value rest ih =>
    rw [List.length_cons]
    rcases List.mem_cons.mp h with rfl | hrest
    · exact ⟨Nat.le_refl _, by omega⟩
    · have := ih hrest
      omega

theorem read_writeList_of_outside {address a : Nat} {data : List UInt8}
    (h : a < address ∨ address + data.length ≤ a) :
    (m.writeList address data).read a = m.read a := by
  rw [writeList_eq]
  apply m.read_writeEach_of_ne
  intro w hw heq
  have := mem_placed hw
  omega

/-- A stretch that was written reads back. -/
theorem readList_writeList {address : Nat} {data : List UInt8}
    (h : address + data.length ≤ m.bytes.size) :
    (m.writeList address data).readList address data.length = data := by
  induction data generalizing m address with
  | nil => rfl
  | cons value rest ih =>
    rw [List.length_cons] at h
    have hsize : address + 1 + rest.length ≤ (m.write address value).bytes.size := by
      rw [size_write]
      omega
    rw [List.length_cons, Nat.add_comm, readList_add, writeList, ih _ hsize]
    -- the later bytes go to other places than the first
    have hfirst :
        ((m.write address value).writeList (address + 1) rest).read (address + 0) = value := by
      rw [read_writeList_of_outside _ (by omega), read_write, if_pos ⟨rfl, by omega⟩]
    show [((m.write address value).writeList (address + 1) rest).read (address + 0)] ++ rest = _
    rw [hfirst]
    rfl

/-- A stretch that a write does not meet stays as it was. -/
theorem readList_writeList_of_apart {address start length : Nat} {data : List UInt8}
    (h : start + length ≤ address ∨ address + data.length ≤ start) :
    (m.writeList address data).readList start length = m.readList start length := by
  apply readList_congr
  intro i hi
  exact m.read_writeList_of_outside (by omega)

/-- What is written behind a stretch makes it longer. -/
theorem readList_writeList_behind {address length : Nat} {data : List UInt8}
    (h : address + length + data.length ≤ m.bytes.size) :
    (m.writeList (address + length) data).readList address (length + data.length) =
      m.readList address length ++ data := by
  rw [readList_add, m.readList_writeList h, m.readList_writeList_of_apart (.inl (Nat.le_refl _))]

theorem read_writeList {address : Nat} {data : List UInt8}
    (h : address + data.length ≤ m.bytes.size) {i : Nat} (hi : i < data.length) :
    (m.writeList address data).read (address + i) = data[i] := by
  have hlen : i < ((m.writeList address data).readList address data.length).length := by
    rwa [length_readList]
  rw [← getElem_readList (m.writeList address data) hlen]
  congr 1
  exact m.readList_writeList h

/-- Memories of one size in which every byte reads the same are one. -/
theorem ext_read {m m' : Memory} (hsize : m.bytes.size = m'.bytes.size)
    (hread : ∀ a, m.read a = m'.read a) : m = m' := by
  obtain ⟨bytes⟩ := m
  obtain ⟨bytes'⟩ := m'
  congr 1
  apply Array.ext hsize
  intro i hi hi'
  simpa [read, hi, hi'] using hread i

/-! ## Copies of elements -/

/-- A copy depends on the block that a descriptor holds, and not on its link and its flag. -/
theorem copyElements_congr {d d' : Descriptor} (h : d.block = d'.block) (first count : Nat) :
    m.copyElements d first count = m.copyElements d' first count := by
  obtain ⟨hsource, hdestination, -, hbytes, hsourceFixed, hdestinationFixed⟩ := Block.mk.inj h
  have hfrom (index : Nat) : d.sourceOf index = d'.sourceOf index := by
    simp only [Descriptor.sourceOf, hsource, hsourceFixed, hbytes]
  have hto (index : Nat) : d.destinationOf index = d'.destinationOf index := by
    simp only [Descriptor.destinationOf, hdestination, hdestinationFixed, hbytes]
  induction count generalizing m first with
  | zero => rfl
  | succ count ih => rw [copyElements, copyElements, hfrom, hto, hbytes, ih]

/-- The writes of a copy of elements, in order. -/
def elementWrites (m : Memory) (d : Descriptor) (first : Nat) : Nat → List (Nat × UInt8)
  | 0 => []
  | count + 1 =>
    placed (d.destinationOf first) (m.readList (d.sourceOf first) d.elementBytes) ++
      elementWrites (m.copy (d.sourceOf first) (d.destinationOf first) d.elementBytes) d (first + 1)
        count

/-- A copy of elements is its writes. -/
theorem copyElements_eq (d : Descriptor) (first count : Nat) :
    m.copyElements d first count = m.writeEach (m.elementWrites d first count) := by
  induction count generalizing m first with
  | zero => rfl
  | succ count ih => rw [copyElements, ih, elementWrites, writeEach_append, copy, writeList_eq]

section Bytes

variable {d : Descriptor} (hbytes : d.elementBytes = 1)

include hbytes

/-- Bytes that go to a register are the bytes of the source, each written to the same place. -/
theorem elementWrites_toRegister (hs : d.sourceFixed = false) (hd : d.destinationFixed = true)
    {first count : Nat}
    (hout : ∀ i, first ≤ i → i < first + count → d.source + i ≠ d.destination) :
    m.elementWrites d first count =
      (m.readList (d.source + first) count).map (d.destination, ·) := by
  have hsource (i : Nat) : d.sourceOf i = d.source + i := by
    rw [Descriptor.sourceOf, hs, hbytes, Nat.mul_one]
    rfl
  have hdestination (i : Nat) : d.destinationOf i = d.destination := by
    rw [Descriptor.destinationOf, hd]
    rfl
  induction count generalizing m first with
  | zero => rfl
  | succ count ih =>
    have hone : m.readList (d.source + first) 1 = [m.read (d.source + first)] := rfl
    rw [elementWrites, hsource, hdestination, hbytes, hone, ih _ fun i h₁ h₂ => hout i (by omega)
      (by omega), Nat.add_comm count, readList_add, hone, List.map_append]
    congr 2
    -- the register is not among the bytes that are still to be read
    apply readList_congr
    intro i hi
    have hne := hout (first + 1 + i) (by omega) (by omega)
    apply read_writeList_of_outside m
    have hlen := m.length_readList (d.source + first) 1
    rw [hlen]
    omega

/-- Bytes that come from a register are one byte over and over, placed side by side. -/
theorem elementWrites_fromRegister (hs : d.sourceFixed = true) (hd : d.destinationFixed = false)
    {first count : Nat}
    (hout : ∀ i, first ≤ i → i < first + count → d.destination + i ≠ d.source) :
    m.elementWrites d first count =
      placed (d.destination + first) (List.replicate count (m.read d.source)) := by
  have hsource (i : Nat) : d.sourceOf i = d.source := by
    rw [Descriptor.sourceOf, hs]
    rfl
  have hdestination (i : Nat) : d.destinationOf i = d.destination + i := by
    rw [Descriptor.destinationOf, hd, hbytes, Nat.mul_one]
    rfl
  induction count generalizing m first with
  | zero => rfl
  | succ count ih =>
    have hone : m.readList d.source 1 = [m.read d.source] := rfl
    -- what was copied does not change the register
    have hkept : (m.copy d.source (d.destination + first) 1).read d.source = m.read d.source := by
      have hne := hout first (Nat.le_refl _) (by omega)
      apply read_writeList_of_outside m
      rw [m.length_readList]
      omega
    rw [elementWrites, hsource, hdestination, hbytes, hone, ih _ fun i h₁ h₂ => hout i (by omega)
      (by omega), hkept, List.replicate_succ]
    rfl

end Bytes

end Memory

namespace Scene

/-! ## What the controller writes -/

/-- The writes of the controller when it moves so many elements. -/
def writes (v : Scene) (count : Nat) : List (Nat × UInt8) :=
  if v.current = 0 then []
  else
    let d := v.table.read v.current
    v.memory.elementWrites d (d.elements - v.remaining) (min count v.remaining)

/-- Moving elements changes memory by these writes and by nothing else. -/
theorem memory_moveElements (v : Scene) (count : Nat) :
    (v.moveElements count).memory = v.memory.writeEach (v.writes count) := by
  unfold moveElements writes
  by_cases hc : v.current = 0
  · rw [if_pos hc, if_pos hc]
    rfl
  · rw [if_neg hc, if_neg hc]
    exact v.memory.copyElements_eq ..

/-- So does the end of a block, with all elements that are left. -/
theorem memory_finish (v : Scene) :
    v.finish.memory = v.memory.writeEach (v.writes v.remaining) := by
  rw [← memory_moveElements]
  unfold finish
  by_cases hc : v.current = 0
  · rw [if_pos hc, moveElements, if_pos hc]
  · rw [if_neg hc]
    rfl

end Scene

end ScatterGather

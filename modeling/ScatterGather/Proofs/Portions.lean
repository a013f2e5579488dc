import ScatterGather.Proofs.Checked
import ScatterGather.Proofs.Copying

/-!
# ScatterGather.Proofs.Portions — a block may be moved in any portions

A controller moves a block a few elements at a time, and finishes it with whatever is left. It keeps
no position: which element comes next it works out anew for each portion, from the count of elements
left and from the control word that it finds in memory then. Between two portions drivers may switch
the interrupt flag of the descriptor or link it to another.

What becomes of memory is said twice. `Descriptor.Copies` says it byte by byte and one element after
another, each read from what the elements before it left; `Memory.copyElements` computes it, and
`copies_iff` says that the two agree. Source and destination may overlap in any way. Descriptors lie
in a memory of their own, so no copy meets them.

`Machine.partway` is the machine in which so many elements of a block were moved and the descriptors
were rewritten. Every portion leads from one such machine to another (`Fetched.step_partway`), and
finishing is the same from all of them (`Fetched.finish_partway`). Hence
`Machine.moved_in_portions`: portions cannot be seen in what the end of a block leaves behind.
-/

namespace ScatterGather

/-! ## A block, element by element -/

namespace Descriptor

/-- One element of a block is copied, and nothing else changes. -/
structure CopiesElement (d : Descriptor) (index : Nat) (m m' : Memory) : Prop where
  size : m'.bytes.size = m.bytes.size
  copied : ∀ k < d.elementBytes,
    m'.read (d.destinationOf index + k) = m.read (d.sourceOf index + k)
  kept : ∀ a, a < d.destinationOf index ∨ d.destinationOf index + d.elementBytes ≤ a →
    m'.read a = m.read a

/-- The first elements of a block, so many of them, are copied in ascending order, each from what
the elements before it left. -/
inductive Copies (d : Descriptor) (m : Memory) : (count : Nat) → Memory → Prop where
  | none : d.Copies m 0 m
  | next {count : Nat} {m' m'' : Memory} (before : d.Copies m count m')
      (element : d.CopiesElement count m' m'') : d.Copies m (count + 1) m''

/-- All elements of a block are read inside memory and written inside memory. -/
def LiesIn (d : Descriptor) (m : Memory) : Prop :=
  ∀ index < d.elements, d.sourceOf index + d.elementBytes ≤ m.bytes.size ∧
    d.destinationOf index + d.elementBytes ≤ m.bytes.size

variable {d : Descriptor} {m : Memory}

/-- What the copy of one element leaves behind is determined. -/
theorem CopiesElement.unique {index : Nat} {m' m'' : Memory} (h' : d.CopiesElement index m m')
    (h'' : d.CopiesElement index m m'') : m' = m'' := by
  refine Memory.ext_read (h'.size.trans h''.size.symm) fun a => ?_
  by_cases hin : d.destinationOf index ≤ a ∧ a < d.destinationOf index + d.elementBytes
  · obtain ⟨k, rfl⟩ := Nat.exists_eq_add_of_le hin.1
    have hk : k < d.elementBytes := by omega
    rw [h'.copied k hk, h''.copied k hk]
  · have hout : a < d.destinationOf index ∨ d.destinationOf index + d.elementBytes ≤ a := by omega
    rw [h'.kept a hout, h''.kept a hout]

/-- One element is copied as it should be, also onto its own source. -/
theorem copiesElement_copy {index : Nat}
    (hin : d.destinationOf index + d.elementBytes ≤ m.bytes.size) :
    d.CopiesElement index m
      (m.copy (d.sourceOf index) (d.destinationOf index) d.elementBytes) where
  size := Memory.size_writeList ..
  copied k hk := by
    have hlen := m.length_readList (d.sourceOf index) d.elementBytes
    rw [Memory.copy, m.read_writeList (by rwa [hlen]) (by rwa [hlen]), Memory.getElem_readList]
  kept a ha := by
    refine m.read_writeList_of_outside ?_
    rwa [Memory.length_readList]

/-- **The computed copy is the copy element by element**, and no other memory is. -/
theorem copies_iff {count : Nat}
    (hin : ∀ index < count, d.destinationOf index + d.elementBytes ≤ m.bytes.size)
    {m' : Memory} : d.Copies m count m' ↔ m' = m.copyElements d 0 count := by
  induction count generalizing m' with
  | zero =>
    constructor
    · rintro ⟨⟩
      rfl
    · rintro rfl
      exact .none
  | succ count ih =>
    have ih {m' : Memory} : d.Copies m count m' ↔ m' = m.copyElements d 0 count :=
      ih fun index hlt => hin index (Nat.lt_succ_of_lt hlt)
    -- the last element is copied from what the others left
    have hlast : d.CopiesElement count (m.copyElements d 0 count)
        (m.copyElements d 0 (count + 1)) := by
      rw [Memory.copyElements_add, Nat.zero_add]
      refine copiesElement_copy ?_
      rw [Memory.size_copyElements]
      exact hin count (Nat.lt_succ_self count)
    constructor
    · rintro (_ | ⟨hbefore, helement⟩)
      obtain rfl := ih.mp hbefore
      exact helement.unique hlast
    · rintro rfl
      exact .next (ih.mpr rfl) hlast

end Descriptor

/-! ## Portions -/

/-- Something that happens while a controller is at a block: it moves some elements, or a driver
switches the interrupt flag of a descriptor or links it to another. -/
inductive BlockStep where
  | move (count : Nat)
  | arm (address : Nat) (on : Bool)
  | link (address next : Nat)

namespace BlockStep

/-- The elements that are asked for. -/
def elements : BlockStep → Nat
  | move count => count
  | arm _ _ | link _ _ => 0

/-- The elements that are asked for in all. -/
def totalElements : List BlockStep → Nat
  | [] => 0
  | s :: steps => s.elements + totalElements steps

/-- What becomes of the descriptors. -/
def rewrite (t : DescriptorTable) : BlockStep → DescriptorTable
  | move _ => t
  | arm address on => t.arm address on
  | link address next => t.write address (.next next)

variable {t : DescriptorTable} {address : Nat}

/-- A descriptor keeps its body, whichever flags are switched and links are written. -/
theorem body_rewrite (h : t.HasCell address) (s : BlockStep) :
    ((s.rewrite t).read address).body = (t.read address).body := by
  have hother {other : Nat} (hne : other ≠ address) (w : Descriptor.Write) :
      ((t.write other w).read address).body = (t.read address).body := by
    rw [DescriptorTable.read_write_of_ne t hne]
  cases s with
  | move count => rfl
  | arm other on =>
    by_cases heq : other = address
    · exact t.body_arm (heq ▸ h) on address
    · exact hother heq _
  | link other next =>
    by_cases heq : other = address
    · subst heq
      show ((t.write other (.next next)).read other).body = _
      rw [t.read_write h, if_pos rfl]
      rfl
    · exact hother heq _

theorem hasCell_rewrite (h : t.HasCell address) (s : BlockStep) :
    (s.rewrite t).HasCell address := by
  cases s with
  | move count => exact h
  | arm | link => exact h.write _

/-- Descriptors that steps have rewritten hold the blocks that they held. -/
theorem block_foldl_rewrite (h : t.HasCell address) (steps : List BlockStep) :
    ((steps.foldl rewrite t).read address).block = (t.read address).block := by
  induction steps generalizing t with
  | nil => rfl
  | cons s steps ih =>
    rw [List.foldl_cons, ih (hasCell_rewrite h s)]
    exact Descriptor.block_congr (body_rewrite h s)

end BlockStep

/-! ### Controllers -/

namespace Controller

/-- Moves elements of the block being executed, and looks before every step that can fail. -/
def moveElements? (c : Controller) (table : DescriptorTable) (memory : Memory) (count : Nat) :
    Option (Controller × Memory) :=
  if c.isRunning then do
    let d := table.read c.current
    let count := min count c.remaining
    let done ← minus? d.elements c.remaining
    let remaining ← minus? c.remaining count
    pure ({ c with remaining }, memory.copyElements d done count)
  else pure (c, memory)

/-- What a controller and memory have become once so many elements of a block were moved. -/
def partway (c : Controller) (d : Descriptor) (memory : Memory) (moved : Nat) :
    Controller × Memory :=
  ({ c with remaining := d.elements - moved }, memory.copyElements d 0 moved)

variable {c : Controller} {table : DescriptorTable}

/-- With no more elements left than the block has, no step fails. -/
theorem moveElements?_eq (h : c.remaining ≤ (table.read c.current).elements) (memory : Memory)
    (count : Nat) :
    c.moveElements? table memory count = some (c.moveElements table memory count) := by
  unfold moveElements? moveElements
  split
  · simp only [minus?_of_le h, minus?_of_le (Nat.min_le_right count c.remaining),
      Option.bind_eq_bind, Option.bind_some, Option.pure_def]
  · rfl

theorem moveElements_running (h : c.current ≠ 0) (memory : Memory) (count : Nat) :
    c.moveElements table memory count =
      ({ c with remaining := c.remaining - min count c.remaining },
        memory.copyElements (table.read c.current)
          ((table.read c.current).elements - c.remaining) (min count c.remaining)) := by
  simp [moveElements, isRunning, h]

section Partway

variable {d : Descriptor} (hrun : c.current ≠ 0)
  (hblock : (table.read c.current).block = d.block) (memory : Memory) {moved : Nat}
  (hmoved : moved ≤ d.elements)

include hrun hblock hmoved

/-- A portion is moved, or what is left if that is less. -/
theorem moveElements_partway (count : Nat) :
    (c.partway d memory moved).1.moveElements table (c.partway d memory moved).2 count =
      c.partway d memory (min (moved + count) d.elements) := by
  have helements : (table.read c.current).elements = d.elements := congrArg Block.elements hblock
  -- the position that the controller works out is the number of elements moved so far
  have hposition : d.elements - (d.elements - moved) = moved := by omega
  have hportion : min (moved + count) d.elements = moved + min count (d.elements - moved) := by
    omega
  rw [moveElements_running (c := (c.partway d memory moved).1) hrun, hportion]
  refine Prod.ext ?_ ?_
  · show ({ c with
        remaining := d.elements - moved - min count (d.elements - moved) } : Controller) = _
    rw [Nat.sub_sub]
    rfl
  · show (memory.copyElements d 0 moved).copyElements (table.read c.current)
        ((table.read c.current).elements - (d.elements - moved)) (min count (d.elements - moved)) =
      memory.copyElements d 0 (moved + min count (d.elements - moved))
    rw [helements, hposition, Memory.copyElements_congr _ hblock, Memory.copyElements_add,
      Nat.zero_add]

/-- How much of a block was moved before makes no difference to its end. -/
theorem finish_partway :
    (c.partway d memory moved).1.finish table (c.partway d memory moved).2 =
      (c.partway d memory 0).1.finish table (c.partway d memory 0).2 := by
  -- with what is left the whole block is moved, wherever one started
  have hrest {moved : Nat} (hmoved : moved ≤ d.elements) :
      (c.partway d memory moved).1.finish table (c.partway d memory moved).2 =
        (if !(table.read c.current).interrupts then none
          else if (table.read c.current).next ≠ 0 then some .progress else some .complete,
          (c.partway d memory d.elements).1.load table (table.read c.current).next,
          (c.partway d memory d.elements).2) := by
    have hall : min (moved + (d.elements - moved)) d.elements = d.elements := by omega
    have hmove := moveElements_partway hrun hblock memory hmoved (d.elements - moved)
    rw [hall] at hmove
    rw [Controller.finish_running (c := (c.partway d memory moved).1) table _ hrun]
    exact congrArg (fun p : Controller × Memory => (_, p.1.load table _, p.2)) hmove
  rw [hrest hmoved, hrest (Nat.zero_le _)]

end Partway

end Controller

/-! ### Machines -/

namespace Machine

variable {m : Machine} {i address : Nat}

/-- What a step does. -/
def blockStep (m : Machine) (i : Nat) : BlockStep → Machine
  | .move count => m.moveElements i count
  | .arm address on => (m.exec (.controller i) (setInterrupt address on)).2
  | .link address next => (m.exec (.controller i) (perform (.store address (.next next)))).2

/-- What steps do, one after another. -/
def blockSteps (m : Machine) (i : Nat) (steps : List BlockStep) : Machine :=
  steps.foldl (fun m s => m.blockStep i s) m

/-- The controller has fetched the descriptor at an address, and has moved nothing of the block. -/
structure Fetched (m : Machine) (i address : Nat) : Prop where
  index_lt : i < m.controllers.size
  hasCell : m.table.HasCell address
  current : (m.controller i).current = address
  remaining : (m.controller i).remaining = (m.table.read address).elements

/-- Loading a descriptor fetches it. -/
theorem fetched_load {c : Controller} (hi : i < m.controllers.size) (ha : m.table.HasCell address) :
    (m.setController i (c.load m.table address)).Fetched i address := by
  have hself := m.controller_setController_self hi (c.load m.table address)
  refine ⟨(m.size_setController i _).symm ▸ hi, ha, ?_, ?_⟩
  · rw [hself]
    rfl
  · rw [hself]
    exact if_neg ha.ne_zero

/-- A controller that is set to the head of a chain has fetched the first block. -/
theorem fetched_start (hi : i < m.controllers.size) (ha : m.table.HasCell address)
    (priority : Priority) : (m.start (.controller i) address priority).Fetched i address :=
  fetched_load hi ha

/-- The machine with another controller at a place, and with other data in memory. -/
def withMoved (m : Machine) (i : Nat) (p : Controller × Memory) : Machine :=
  setController { m with memory := p.2 } i p.1

theorem withMoved_withMoved (m : Machine) (i : Nat) (p q : Controller × Memory) :
    (m.withMoved i p).withMoved i q = m.withMoved i q := by
  simp [withMoved, setController]

theorem withMoved_self (m : Machine) (i : Nat) : m.withMoved i (m.controller i, m.memory) = m :=
  m.setController_controller i

section Moved

variable (hi : i < m.controllers.size) (p : Controller × Memory)

include hi

theorem controller_withMoved : (m.withMoved i p).controller i = p.1 :=
  controller_setController_self _ hi _

theorem moveElements_withMoved (count : Nat) :
    (m.withMoved i p).moveElements i count =
      m.withMoved i (p.1.moveElements m.table p.2 count) :=
  calc (m.withMoved i p).moveElements i count
    _ = (m.withMoved i p).withMoved i
          (((m.withMoved i p).controller i).moveElements m.table p.2 count) := rfl
    _ = m.withMoved i (p.1.moveElements m.table p.2 count) := by
      rw [withMoved_withMoved, controller_withMoved hi]

theorem finish_withMoved :
    (m.withMoved i p).finish i =
      ((p.1.finish m.table p.2).1, m.withMoved i (p.1.finish m.table p.2).2) :=
  calc (m.withMoved i p).finish i
    _ = ((((m.withMoved i p).controller i).finish m.table p.2).1,
          (m.withMoved i p).withMoved i
            (((m.withMoved i p).controller i).finish m.table p.2).2) := rfl
    _ = ((p.1.finish m.table p.2).1, m.withMoved i (p.1.finish m.table p.2).2) := by
      rw [withMoved_withMoved, controller_withMoved hi]

end Moved

/-! ### Part of a block -/

/-- The machine with the descriptors of a table, in which so many elements of the block at an
address were moved. -/
def partway (m : Machine) (i address : Nat) (t : DescriptorTable) (moved : Nat) : Machine :=
  withMoved { m with table := t } i
    ((m.controller i).partway (m.table.read address) m.memory moved)

namespace Fetched

variable {t : DescriptorTable} {moved : Nat} (h : m.Fetched i address)

include h

theorem running : (m.controller i).current ≠ 0 :=
  h.current.symm ▸ h.hasCell.ne_zero

theorem partway_zero (t : DescriptorTable) :
    m.partway i address t 0 = { m with table := t } := by
  have hself : (m.controller i).partway (m.table.read address) m.memory 0 =
      (m.controller i, m.memory) := by
    refine Prod.ext ?_ rfl
    show { m.controller i with remaining := (m.table.read address).elements } = m.controller i
    rw [← h.remaining]
  rw [partway, hself]
  exact withMoved_self { m with table := t } i

section Block

variable (hblock : (t.read address).block = (m.table.read address).block)
  (hmoved : moved ≤ (m.table.read address).elements)

include hblock

theorem block_current : (t.read (m.controller i).current).block = (m.table.read address).block := by
  rw [h.current, hblock]

include hmoved

/-- A step goes on from part of a block. -/
theorem step_partway (s : BlockStep) :
    (m.partway i address t moved).blockStep i s =
      m.partway i address (s.rewrite t)
        (min (moved + s.elements) (m.table.read address).elements) := by
  cases s with
  | move count =>
    have hmove := Controller.moveElements_partway h.running (h.block_current hblock) m.memory hmoved
      count
    show (m.partway i address t moved).moveElements i count = _
    rw [partway, moveElements_withMoved (by exact h.index_lt), hmove]
    rfl
  | arm | link =>
    rw [BlockStep.elements, Nat.add_zero, Nat.min_eq_left hmoved]
    rfl

/-- So do steps, one after another. -/
theorem steps_partway (hcell : t.HasCell address) (steps : List BlockStep) :
    (m.partway i address t moved).blockSteps i steps =
      m.partway i address (steps.foldl BlockStep.rewrite t)
        (min (moved + BlockStep.totalElements steps) (m.table.read address).elements) := by
  -- on the steps, from any part of the block and any descriptors that hold the same block
  induction steps generalizing t moved with
  | nil =>
    show m.partway i address t moved = m.partway i address t _
    rw [BlockStep.totalElements, Nat.add_zero, Nat.min_eq_left hmoved]
  | cons s steps ih =>
    have hkept := (Descriptor.block_congr (s.body_rewrite hcell)).trans hblock
    show ((m.partway i address t moved).blockStep i s).blockSteps i steps = _
    rw [h.step_partway hblock hmoved, ih hkept (Nat.min_le_right ..) (s.hasCell_rewrite hcell),
      BlockStep.totalElements, List.foldl_cons]
    congr 1
    omega

/-- However much of a block was moved before, its end is the same. -/
theorem finish_partway : (m.partway i address t moved).finish i =
    ({ m with table := t } : Machine).finish i := by
  rw [← h.partway_zero, partway, partway, finish_withMoved (by exact h.index_lt),
    finish_withMoved (by exact h.index_lt),
    Controller.finish_partway h.running (h.block_current hblock) m.memory hmoved]

omit hmoved

/-- The end of a block copies all of its elements. -/
theorem memory_finish : (({ m with table := t } : Machine).finish i).2.memory =
    m.memory.copyElements (m.table.read address) 0 (m.table.read address).elements := by
  have hblock := h.block_current hblock
  have helements : (t.read (m.controller i).current).elements = (m.table.read address).elements :=
    congrArg Block.elements hblock
  show ((m.controller i).finish t m.memory).2.2 = _
  rw [Controller.finish_running t m.memory h.running]
  show ((m.controller i).moveElements t m.memory (m.controller i).remaining).2 = _
  rw [Controller.moveElements_running h.running]
  show m.memory.copyElements (t.read (m.controller i).current) _ _ = _
  rw [helements, h.remaining, Nat.sub_self, Nat.min_self, Memory.copyElements_congr _ hblock]

end Block

/-- The end of a block fetches the descriptor that it leads to. -/
theorem finish (t : DescriptorTable) (hnext : t.HasCell (t.read address).next) :
    (({ m with table := t } : Machine).finish i).2.Fetched i (t.read address).next := by
  have hfinish := Controller.finish_running t m.memory h.running
  rw [h.current] at hfinish
  show (withMoved { m with table := t } i ((m.controller i).finish t m.memory).2).Fetched i _
  rw [hfinish]
  exact fetched_load h.index_lt hnext

end Fetched

/-! ## Any portions -/

/-- What comes of steps that ask for so many elements of the block at an address, if they lead from
one machine to another. -/
structure Portioned (m : Machine) (i address asked : Nat) (m' : Machine) : Prop where
  /-- The first elements were copied in ascending order, as many as were asked for, or all. -/
  copied : (m.table.read address).Copies m.memory (min asked (m.table.read address).elements)
    m'.memory
  /-- The others are left. -/
  left : (m'.controller i).remaining + min asked (m.table.read address).elements =
    (m.table.read address).elements
  /-- Whatever is asked for next, no count underflows. -/
  checked : ∀ count, (m'.controller i).moveElements? m'.table m'.memory count =
    some ((m'.controller i).moveElements m'.table m'.memory count)
  /-- Who asks for more than is left gets what is left. -/
  clipped : ∀ count, (m'.controller i).remaining ≤ count →
    m'.moveElements i count = m'.moveElements i (m'.controller i).remaining
  /-- The block ends as if no element had been moved before: only what was done to the descriptors
  can be seen in the event that is raised and in the machine that is left. -/
  finished : m'.finish i = ({ m with table := m'.table } : Machine).finish i
  /-- Memory is left as if the block had been finished at once, -/
  memory : (m'.finish i).2.memory = (m.finish i).2.memory
  /-- and this is what copying all of its elements in ascending order leaves, and nothing else. -/
  whole : ∀ memory, (m.table.read address).Copies m.memory (m.table.read address).elements memory ↔
    memory = (m.finish i).2.memory
  /-- The descriptor that the block leads to by then is fetched, and nothing of its block is
  moved. -/
  onward : m'.table.HasCell (m'.table.read address).next →
    (m'.finish i).2.Fetched i (m'.table.read address).next

theorem moveElements_of_remaining_le {count : Nat} (h : (m.controller i).remaining ≤ count) :
    m.moveElements i count = m.moveElements i (m.controller i).remaining := by
  simp only [moveElements, Controller.moveElements, Nat.min_eq_right h, Nat.min_self]

theorem Fetched.portioned {t : DescriptorTable} (h : m.Fetched i address)
    (hin : (m.table.read address).LiesIn m.memory)
    (hblock : (t.read address).block = (m.table.read address).block) (asked : Nat) :
    m.Portioned i address asked
      (m.partway i address t (min asked (m.table.read address).elements)) := by
  have hmoved := Nat.min_le_right asked (m.table.read address).elements
  have hcontroller := controller_withMoved (m := { m with table := t }) h.index_lt
    ((m.controller i).partway (m.table.read address) m.memory
      (min asked (m.table.read address).elements))
  have hcopies {count : Nat} (hcount : count ≤ (m.table.read address).elements) {memory : Memory} :
      (m.table.read address).Copies m.memory count memory ↔
        memory = m.memory.copyElements (m.table.read address) 0 count :=
    Descriptor.copies_iff fun index hlt => (hin index (Nat.lt_of_lt_of_le hlt hcount)).2
  have hfinish := h.finish_partway hblock hmoved
  have hsingle : (m.finish i).2.memory = _ := h.memory_finish (t := m.table) rfl
  exact
    { copied := (hcopies hmoved).mpr rfl
      left := by
        rw [partway, hcontroller]
        exact Nat.sub_add_cancel hmoved
      checked := by
        refine fun count => Controller.moveElements?_eq ?_ _ count
        rw [partway, hcontroller]
        show _ ≤ (t.read (m.controller i).current).elements
        rw [show (t.read (m.controller i).current).elements = _ from
          congrArg Block.elements (h.block_current hblock)]
        exact Nat.sub_le ..
      clipped := fun count => moveElements_of_remaining_le
      finished := hfinish
      memory := by rw [hfinish, h.memory_finish hblock, hsingle]
      whole := fun memory => by rw [hsingle, hcopies (Nat.le_refl _)]
      onward := fun hnext => by
        rw [hfinish]
        exact h.finish t hnext }

/-- **A block may be moved in any portions.** A controller has fetched a descriptor whose block lies
in memory. It moves any portions of the block, and drivers switch flags and write links in between,
those of this descriptor included. Then the block ends as if it had been finished at once. -/
theorem moved_in_portions (h : m.Fetched i address) (hin : (m.table.read address).LiesIn m.memory)
    (steps : List BlockStep) :
    m.Portioned i address (BlockStep.totalElements steps) (m.blockSteps i steps) := by
  have hsteps := h.steps_partway rfl (Nat.zero_le _) h.hasCell steps
  rw [h.partway_zero, Nat.zero_add] at hsteps
  have hsteps : m.blockSteps i steps = _ := hsteps
  rw [hsteps]
  exact h.portioned hin (BlockStep.block_foldl_rewrite h.hasCell steps) _

/-- Four elements of two bytes are copied one byte up, over their own source. The block is moved in
portions of one and of two elements, and is armed and linked in between; the event of its end tells
of the flag and the link, and memory of neither. -/
theorem moved_in_portions_overlapping :
    let first := DescriptorTable.address 0
    let second := DescriptorTable.address 1
    let table : DescriptorTable := ⟨#[{ source := 0, destination := 1, control := 0x10003 }, {}]⟩
    let memory : Memory := ⟨#[1, 2, 3, 4, 5, 6, 7, 8, 9, 10]⟩
    let m := start { memory, table, controllers := #[{}] } (.controller 0) first .normal
    let steps := [.move 1, .arm first true, .move 2, .link first second]
    m.Fetched 0 first ∧ (m.table.read first).LiesIn m.memory ∧
      m.Portioned 0 first (BlockStep.totalElements steps) (m.blockSteps 0 steps) ∧
      (m.finish 0).1 = none ∧ ((m.blockSteps 0 steps).finish 0).1 = some .progress ∧
      ((m.blockSteps 0 steps).finish 0).2.memory.bytes = #[1, 1, 2, 2, 4, 4, 6, 6, 8, 10] := by
  intro first second table memory m steps
  have hfetched : m.Fetched 0 first := fetched_start (by decide) ⟨0, by decide, rfl⟩ .normal
  have hin : ∀ index < (m.table.read first).elements,
      (m.table.read first).sourceOf index + (m.table.read first).elementBytes ≤
          m.memory.bytes.size ∧
        (m.table.read first).destinationOf index + (m.table.read first).elementBytes ≤
          m.memory.bytes.size := by decide +kernel
  exact ⟨hfetched, hin, moved_in_portions hfetched hin steps, by decide +kernel, by decide +kernel,
    by decide +kernel⟩

end Machine

end ScatterGather

import ScatterGather.Proofs.Copying
import ScatterGather.Proofs.Execution

/-!
# ScatterGather.Proofs.Buffers — copies that keep to some bytes

`Buffers` name the bytes that a controller is to read and those that it is to write. A copy of
elements that lie in them (`Buffers.covers`) writes nothing else, and does the same to two memories
that agree on them. `Buffers.admits` says of a controller that the elements it would move now lie in
them.
-/

namespace ScatterGather

/-- The bytes that a controller is to read, and those that it is to write. -/
structure Buffers where
  reads : Nat → Bool
  writes : Nat → Bool

namespace Buffers

variable {D : Buffers} {d : Descriptor} {first count : Nat}

/-- Neither side writes what the other reads or writes. -/
structure Apart (D E : Buffers) : Prop where
  left : ∀ b, D.writes b = true → E.reads b = false ∧ E.writes b = false
  right : ∀ b, E.writes b = true → D.reads b = false ∧ D.writes b = false

theorem Apart.symm {E : Buffers} (h : D.Apart E) : E.Apart D :=
  ⟨h.right, h.left⟩

/-- Whether a byte is read or written. -/
def has (D : Buffers) (b : Nat) : Bool :=
  D.reads b || D.writes b

theorem Apart.writes_eq_false {E : Buffers} (h : D.Apart E) {b : Nat} (hb : D.has b = true) :
    E.writes b = false := by
  cases hw : E.writes b with
  | false => rfl
  | true =>
    obtain ⟨hreads, hwrites⟩ := h.right b hw
    simp [has, hreads, hwrites] at hb

/-- Whether all bytes of `count` elements of a block, from element `first` on, are read from the
buffers and written to them. -/
def covers (D : Buffers) (d : Descriptor) (first count : Nat) : Bool :=
  (List.range count).all fun i => (List.range d.elementBytes).all fun k =>
    D.reads (d.sourceOf (first + i) + k) && D.writes (d.destinationOf (first + i) + k)

theorem covers_iff : D.covers d first count = true ↔
    ∀ i < count, ∀ k < d.elementBytes, D.reads (d.sourceOf (first + i) + k) = true ∧
      D.writes (d.destinationOf (first + i) + k) = true := by
  simp [covers]

theorem covers_succ (h : D.covers d first (count + 1) = true) :
    (∀ k < d.elementBytes, D.reads (d.sourceOf first + k) = true ∧
      D.writes (d.destinationOf first + k) = true) ∧ D.covers d (first + 1) count = true := by
  rw [covers_iff] at h ⊢
  refine ⟨h 0 (by omega), ?_⟩
  intro i hi
  rw [Nat.add_assoc, Nat.add_comm 1]
  exact h (i + 1) (by omega)

/-- Whether the elements that a controller would move now, at most so many, lie in the buffers. -/
def admits (D : Buffers) (m : Machine) (index count : Nat) : Bool :=
  let c := m.controller index
  let d := m.table.read c.current
  !c.isRunning || D.covers d (d.elements - c.remaining) (min count c.remaining)

end Buffers

namespace Memory

variable {m n : Memory} {D : Buffers} {d : Descriptor}

/-- A byte that two memories agree on is the same after the same writes. -/
theorem read_writeList_congr (hsize : m.bytes.size = n.bytes.size) {b : Nat}
    (hb : m.read b = n.read b) (address : Nat) (data : List UInt8) :
    (m.writeList address data).read b = (n.writeList address data).read b := by
  induction data generalizing m n address with
  | nil => exact hb
  | cons value rest ih =>
    apply ih
    · rw [size_write, size_write, hsize]
    · rw [read_write, read_write, hsize, hb]

/-- Memories that agree on some buffers agree on them after a copy inside. -/
theorem read_copyElements_congr {first count : Nat} (hcovers : D.covers d first count = true)
    (hsize : m.bytes.size = n.bytes.size) (hsame : ∀ b, D.has b = true → m.read b = n.read b)
    {b : Nat} (hb : D.has b = true) :
    (m.copyElements d first count).read b = (n.copyElements d first count).read b := by
  induction count generalizing m n first with
  | zero => exact hsame b hb
  | succ count ih =>
    obtain ⟨hfirst, hrest⟩ := Buffers.covers_succ hcovers
    have hdata : n.readList (d.sourceOf first) d.elementBytes =
        m.readList (d.sourceOf first) d.elementBytes := by
      apply readList_congr
      intro k hk
      exact (hsame _ (by simp [Buffers.has, (hfirst k hk).1])).symm
    apply ih hrest
    · simp only [copy, size_writeList, hsize]
    · intro b hb
      unfold copy
      rw [hdata]
      exact read_writeList_congr hsize (hsame b hb) _ _

/-- A copy inside some buffers leaves all other bytes alone. -/
theorem read_copyElements_of_not_writes {first count : Nat}
    (hcovers : D.covers d first count = true) {b : Nat} (hb : D.writes b = false) :
    (m.copyElements d first count).read b = m.read b := by
  induction count generalizing m first with
  | zero => rfl
  | succ count ih =>
    obtain ⟨hfirst, hrest⟩ := Buffers.covers_succ hcovers
    refine (ih hrest).trans (m.read_writeList_of_outside ?_)
    rw [length_readList]
    by_cases hlow : b < d.destinationOf first
    · exact .inl hlow
    · refine .inr (Nat.not_lt.mp fun hhigh => ?_)
      have hwritten := (hfirst (b - d.destinationOf first) (by omega)).2
      rw [Nat.add_sub_cancel' (Nat.not_lt.mp hlow), hb] at hwritten
      cases hwritten

end Memory

end ScatterGather

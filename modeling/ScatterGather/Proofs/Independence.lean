import ScatterGather.Proofs.Fleet

/-!
# ScatterGather.Proofs.Independence — streams on different channels do not interfere

Two streams of a bench drive different channels and different hardware, and their controllers move
elements in buffers of their own. Nothing else is asked of them: they share the ownership table, the
memory and all descriptors, and any number of other streams are around.

Then their turns may come in any order. To each of the two a run in which both take turns looks like
a run that it has alone (`Split`): it finds the same answers, leaves the same trace, and everything
that it sees is in the same state. What neither of them owns does not change. So two runs can differ
in nothing when each stream takes the same turns in both, and `Trial.streams_independent` says so of every
two streams on every bench that can come about.
-/

namespace ScatterGather

/-! ## Two estates beside each other -/

namespace Estate

variable {e e' : Estate} {l m n : Machine}

/-- Neither party changes what the other sees. -/
structure Apart (e e' : Estate) : Prop where
  hardware : e.hardware ≠ e'.hardware
  number : e.number ≠ e'.number
  left : ∀ a, e.own a → ¬e'.seen a
  right : ∀ a, e'.own a → ¬e.seen a
  buffers : e.buffers.Apart e'.buffers

theorem Apart.symm (h : e.Apart e') : e'.Apart e :=
  ⟨h.hardware.symm, h.number.symm, h.right, h.left, h.buffers.symm⟩

/-- What one party does, the other does not see, but for the trace. -/
theorem Spares.same (h : e.Spares m n) (hapart : e.Apart e') (hlog : n.log = m.log)
    (hreports : n.reports = m.reports) : e'.Same n m where
  controllers := h.controllers
  windows := h.windows
  controller i hi := h.controller i (hi ▸ hapart.hardware)
  window i hi := h.window i (hi ▸ hapart.hardware)
  owner := h.owner _ hapart.number.symm
  cells := h.cells
  descriptor a ha := h.descriptor a fun hown => hapart.left a hown ha
  bytes := h.bytes
  byte b hb := h.byte b (hapart.symm.buffers.writes_eq_false hb)
  log := hlog
  reports := hreports

/-- Two machines agree on what neither party owns. -/
structure Elsewhere (e e' : Estate) (m n : Machine) : Prop where
  controller : ∀ i, e.hardware ≠ .controller i → e'.hardware ≠ .controller i →
    m.controller i = n.controller i
  window : ∀ i, e.hardware ≠ .window i → e'.hardware ≠ .window i → m.window i = n.window i
  owner : ∀ number, number ≠ e.number → number ≠ e'.number →
    m.ownership.owner number = n.ownership.owner number
  nextOwner : m.ownership.nextOwner = n.ownership.nextOwner
  descriptor : ∀ a, ¬e.own a → ¬e'.own a → m.table.read a = n.table.read a
  byte : ∀ b, e.buffers.writes b = false → e'.buffers.writes b = false →
    m.memory.read b = n.memory.read b

namespace Elsewhere

theorem refl (e e' : Estate) (m : Machine) : e.Elsewhere e' m m :=
  ⟨fun _ _ _ => rfl, fun _ _ _ => rfl, fun _ _ _ => rfl, rfl, fun _ _ _ => rfl, fun _ _ _ => rfl⟩

theorem swap (h : e.Elsewhere e' m n) : e'.Elsewhere e m n where
  controller i hi hi' := h.controller i hi' hi
  window i hi hi' := h.window i hi' hi
  owner number hn hn' := h.owner number hn' hn
  nextOwner := h.nextOwner
  descriptor a ha ha' := h.descriptor a ha' ha
  byte b hb hb' := h.byte b hb' hb

theorem symm (h : e.Elsewhere e' m n) : e.Elsewhere e' n m where
  controller i hi hi' := (h.controller i hi hi').symm
  window i hi hi' := (h.window i hi hi').symm
  owner number hn hn' := (h.owner number hn hn').symm
  nextOwner := h.nextOwner.symm
  descriptor a ha ha' := (h.descriptor a ha ha').symm
  byte b hb hb' := (h.byte b hb hb').symm

theorem trans (h : e.Elsewhere e' l m) (h' : e.Elsewhere e' m n) : e.Elsewhere e' l n where
  controller i hi hi' := (h.controller i hi hi').trans (h'.controller i hi hi')
  window i hi hi' := (h.window i hi hi').trans (h'.window i hi hi')
  owner number hn hn' := (h.owner number hn hn').trans (h'.owner number hn hn')
  nextOwner := h.nextOwner.trans h'.nextOwner
  descriptor a ha ha' := (h.descriptor a ha ha').trans (h'.descriptor a ha ha')
  byte b hb hb' := (h.byte b hb hb').trans (h'.byte b hb hb')

end Elsewhere

theorem Spares.elsewhere (h : e.Spares m n) (e' : Estate) : e.Elsewhere e' n m where
  controller i hi _ := h.controller i hi
  window i hi _ := h.window i hi
  owner number hn _ := h.owner number hn
  nextOwner := h.nextOwner
  descriptor a ha _ := h.descriptor a ha
  byte b hb _ := h.byte b hb

theorem Same.symm (h : e.Same m n) : e.Same n m where
  controllers := h.controllers.symm
  windows := h.windows.symm
  controller i hi := (h.controller i hi).symm
  window i hi := (h.window i hi).symm
  owner := h.owner.symm
  cells := h.cells.symm
  descriptor a ha := (h.descriptor a ha).symm
  bytes := h.bytes.symm
  byte b hb := (h.byte b hb).symm
  log := h.log.symm
  reports := h.reports.symm

end Estate

/-- Machines are equal when everything on them is the same. -/
theorem Machine.ext_places {m n : Machine} (hcontrollers : m.controllers.size = n.controllers.size)
    (hcontroller : ∀ i, m.controller i = n.controller i)
    (hwindows : m.windows.size = n.windows.size) (hwindow : ∀ i, m.window i = n.window i)
    (howner : ∀ number, m.ownership.owner number = n.ownership.owner number)
    (hnext : m.ownership.nextOwner = n.ownership.nextOwner)
    (hcells : m.table.cells.size = n.table.cells.size)
    (hdescriptor : ∀ a, m.table.read a = n.table.read a)
    (hbytes : m.memory.bytes.size = n.memory.bytes.size)
    (hbyte : ∀ b, m.memory.read b = n.memory.read b)
    (hlog : m.log = n.log) (hreports : m.reports = n.reports) : m = n := by
  obtain ⟨⟨bytes⟩, ⟨cells⟩, controllers, windows, ⟨owners, next⟩, log, reports⟩ := m
  obtain ⟨⟨bytes'⟩, ⟨cells'⟩, controllers', windows', ⟨owners', next'⟩, log', reports'⟩ := n
  obtain rfl : next = next' := hnext
  obtain rfl : log = log' := hlog
  obtain rfl : reports = reports' := hreports
  congr 1
  · exact Memory.ext_read hbytes hbyte
  · congr 1
    apply Array.ext hcells
    intro i hi hi'
    simpa [DescriptorTable.read, DescriptorTable.cellAt_address, hi, hi'] using
      hdescriptor (DescriptorTable.address i)
  · apply Array.ext hcontrollers
    intro i hi hi'
    simpa [Machine.controller, hi, hi'] using hcontroller i
  · apply Array.ext hwindows
    intro i hi hi'
    simpa [Machine.window, hi, hi'] using hwindow i
  · congr 1
    apply Vector.ext
    intro i hi
    simpa [Ownership.owner, hi] using howner i

/-- Two machines that both parties find the same, and that agree elsewhere, are one. -/
theorem Estate.eq_of_same {e e' : Estate} {m n : Machine} (h : e.Same m n) (h' : e'.Same m n)
    (helse : e.Elsewhere e' m n) : m = n := by
  have hany {α : Type} {mine theirs : Prop} {x y : α} (hmine : mine → x = y)
      (htheirs : theirs → x = y) (hnobody : ¬mine → ¬theirs → x = y) : x = y := by
    by_cases hm : mine
    · exact hmine hm
    · by_cases ht : theirs
      · exact htheirs ht
      · exact hnobody hm ht
  apply Machine.ext_places h.controllers ?_ h.windows ?_ ?_ helse.nextOwner h.cells ?_ h.bytes ?_
    h.log h.reports
  · exact fun i => hany (h.controller i) (h'.controller i) (helse.controller i)
  · exact fun i => hany (h.window i) (h'.window i) (helse.window i)
  · intro number
    exact hany (fun hn : number = e.number => hn ▸ h.owner)
      (fun hn : number = e'.number => hn ▸ h'.owner) (helse.owner number)
  · intro a
    exact hany (fun ha => h.descriptor a (e.seen_of_own a ha))
      (fun ha => h'.descriptor a (e'.seen_of_own a ha)) (helse.descriptor a)
  · intro b
    have hhas {D : Buffers} (hb : D.writes b = true) : D.has b = true := by simp [Buffers.has, hb]
    exact hany (fun hb => h.byte b (hhas hb)) (fun hb => h'.byte b (hhas hb)) fun hb hb' =>
      helse.byte b (Bool.eq_false_iff.mpr hb) (Bool.eq_false_iff.mpr hb')

/-- What belongs to one of two streams: its channel, its row and some buffers. It sees every
descriptor but those of the other. -/
def Stream.estate (s u : Stream) (D : Buffers) : Estate where
  hardware := s.channel.hardware
  number := s.channel.number
  own := s.pool.InRow
  seen a := s.pool.InRow a ∨ ¬u.pool.InRow a
  seen_of_own _ := .inl
  buffers := D

namespace Fleet

variable {given : List OwnerId} {issued : Nat} {f f' g g' f₀ : Fleet} {x y : Seat}
  {s u : Stream} {D E : Buffers} {t : Turn}

/-! ## Two streams beside each other -/

/-- Two streams of a fleet that share neither channel nor hardware nor buffers. -/
structure Beside (f : Fleet) (x y : Seat) (s u : Stream) (D E : Buffers) : Prop where
  left : f.live x = some s
  right : f.live y = some u
  number : s.channel.number ≠ u.channel.number
  hardware : s.channel.hardware ≠ u.channel.hardware
  buffers : D.Apart E

theorem Beside.symm (h : f.Beside x y s u D E) : f.Beside y x u s E D :=
  ⟨h.right, h.left, h.number.symm, h.hardware.symm, h.buffers.symm⟩

section Beside

variable (hbeside : f₀.Beside x y s u D E) (h₀ : Tenancy given issued f₀.live f₀.machine)

include hbeside h₀

theorem Beside.apart : (s.estate u D).Apart (u.estate s E) := by
  have hne : x ≠ y := by
    rintro rfl
    exact hbeside.number (congrArg (·.channel.number)
      (Option.some.inj (hbeside.left.symm.trans hbeside.right)))
  have hrow := (h₀.apart x y s u hbeside.left hbeside.right hne).row
  refine ⟨hbeside.hardware, hbeside.number, ?_, ?_, hbeside.buffers⟩
  · rintro a hs (hu | hs')
    · exact hrow a hs hu
    · exact hs' hs
  · rintro a hu (hs | hu')
    · exact hrow a hs hu
    · exact hu' hu

variable (h : Along given issued f₀ f)

include h

omit h₀ in
theorem Beside.holds {s' : Stream} (hs : f.live x = some s') : (s.estate u D).Holds s' := by
  obtain ⟨s₀, hs₀, hroot⟩ := h.rooted x s' hs
  obtain rfl : s = s₀ := Option.some.inj (hbeside.left.symm.trans hs₀)
  refine ⟨?_, ?_, ?_, (h.tenancy.housed x s' hs).seated.fits.queued_le⟩
  · exact congrArg Channel.hardware hroot.channel
  · exact congrArg Channel.number hroot.channel
  · exact fun a ha => (hroot.inRow a).mp ha

/-- Whichever stream a controller runs for, it is not the one on the other channel, and so it stays
among descriptors that are seen. -/
theorem Beside.enclosed : (s.estate u D).Enclosed f.machine := by
  -- a controller that does not run is nowhere
  have hstopped (hstop : ∀ i, s.channel.hardware = .controller i →
      (f.machine.controller i).current = 0) : (s.estate u D).Enclosed f.machine :=
    ⟨fun _ => False, fun _ => False.elim, fun _ => False.elim, fun i hi => .inl (hstop i hi)⟩
  cases hhw : s.channel.hardware with
  | window i => exact hstopped fun j hj => nomatch hhw.symm.trans hj
  | controller i =>
    rcases h.tenancy.driven i with hstop | ⟨z, v, hz, hb, hi⟩
    · refine hstopped fun j hj => ?_
      obtain rfl : i = j := Hardware.controller.inj (hhw.symm.trans hj)
      exact hstop
    · obtain ⟨v₀, hv₀, hroot⟩ := h.rooted z v hz
      have hzy : z ≠ y := by
        rintro rfl
        obtain rfl : u = v₀ := Option.some.inj (hbeside.right.symm.trans hv₀)
        exact hbeside.hardware (hhw.trans (hi.symm.trans (congrArg (·.hardware) hroot.channel)))
      obtain ⟨C, hC⟩ := (h.tenancy.housed z v hz).seated.fenced hb
      refine ⟨C, hC.closed, ?_, ?_⟩
      · intro a ha
        exact .inr ((h₀.apart z y v₀ u hv₀ hbeside.right hzy).row a
          ((hroot.inRow a).mp (hC.row a ha)))
      · intro j hj
        obtain rfl : i = j := Hardware.controller.inj (hhw.symm.trans hj)
        exact hC.current i hi

end Beside

/-! ## Runs -/

/-- A fleet in which two streams have taken turns, beside two fleets in which each of them has taken
its own turns alone: to each stream it looks like the one that is its own, and nothing else has
changed. -/
structure Split (given : List OwnerId) (issued : Nat) (x y : Seat) (s u : Stream) (D E : Buffers)
    (f₀ f g g' : Fleet) : Prop where
  along : Along given issued f₀ f
  left : Like (s.estate u D) x f g
  right : Like (u.estate s E) y f g'
  elsewhere : (s.estate u D).Elsewhere (u.estate s E) f.machine f₀.machine
  others : ∀ z, z ≠ x → z ≠ y → f.live z = f₀.live z

namespace Split

theorem refl (h₀ : Tenancy given issued f₀.live f₀.machine) :
    Split given issued x y s u D E f₀ f₀ f₀ f₀ where
  along := ⟨h₀, fun _ s hz => ⟨s, hz, .refl s⟩⟩
  left := .refl ..
  right := .refl ..
  elsewhere := .refl ..
  others _ _ _ := rfl

theorem symm (h : Split given issued x y s u D E f₀ f g g') :
    Split given issued y x u s E D f₀ f g' g :=
  ⟨h.along, h.right, h.left, h.elsewhere.swap, fun z hy hx => h.others z hx hy⟩

/-- Nothing but what the two streams have seen of it makes a fleet what it is. -/
theorem eq (h : Split given issued x y s u D E f₀ f g g')
    (h' : Split given issued x y s u D E f₀ f' g g') : f = f' := by
  have hlive : f.live = f'.live := by
    funext z
    by_cases hx : z = x
    · rw [hx, h.left.stream, h'.left.stream]
    · by_cases hy : z = y
      · rw [hy, h.right.stream, h'.right.stream]
      · rw [h.others z hx hy, h'.others z hx hy]
  have hmachine : f.machine = f'.machine :=
    Estate.eq_of_same (h.left.same.trans h'.left.same.symm) (h.right.same.trans h'.right.same.symm)
      (h.elsewhere.trans h'.elsewhere.symm)
  cases f
  cases f'
  congr

section Turns

variable (hbeside : f₀.Beside x y s u D E) (h₀ : Tenancy given issued f₀.live f₀.machine)

include hbeside h₀

/-- **One turn**: the stream finds what it finds alone, and the other stream sees nothing of it. -/
theorem turn (h : Split given issued x y s u D E f₀ f g g')
    (hadmitted : (g.live x).all (t.admitted D · g.machine) = true) :
    (f.turn x t).1 = (g.turn x t).1 ∧
      Split given issued x y s u D E f₀ (f.turn x t).2 (g.turn x t).2 g' := by
  have hholds : ∀ s', f.live x = some s' → (s.estate u D).Holds s' :=
    fun _ => hbeside.holds h.along
  have hin := hbeside.enclosed h₀ h.along
  have hadmitted : (f.live x).all (t.admitted D · f.machine) = true :=
    (h.left.admitted hholds hin t).trans hadmitted
  have hspares := spares_turn hholds hadmitted
  have hne : y ≠ x := by
    rintro rfl
    exact hbeside.number (congrArg (·.channel.number)
      (Option.some.inj (hbeside.left.symm.trans hbeside.right)))
  obtain ⟨houtcome, hleft⟩ := h.left.turn hholds hin hadmitted
  obtain ⟨hlog, hreports⟩ := f.trace_turn x t
  refine ⟨houtcome, h.along.turn x t, hleft, ⟨?_, ?_⟩, ?_, ?_⟩
  · exact (live_turn_of_ne hne t).trans h.right.stream
  · exact (hspares.same (hbeside.apart h₀) hlog hreports).trans h.right.same
  · exact (hspares.elsewhere _).trans h.elsewhere
  · intro z hx hy
    exact (live_turn_of_ne hx t).trans (h.others z hx hy)

/-- A run in which one stream takes all turns. -/
theorem run (h : Split given issued x y s u D E f₀ f g g') {turns : List Turn}
    (hkeeps : g.keeps x D turns = true) :
    (f.run x turns).1 = (g.run x turns).1 ∧
      Split given issued x y s u D E f₀ (f.run x turns).2 (g.run x turns).2 g' := by
  induction turns generalizing f g with
  | nil => exact ⟨rfl, h⟩
  | cons t rest ih =>
    obtain ⟨hadmitted, hkeeps⟩ := keeps_cons.mp hkeeps
    obtain ⟨houtcome, h⟩ := h.turn hbeside h₀ hadmitted
    obtain ⟨houtcomes, h⟩ := ih h hkeeps
    rw [run_cons, run_cons, houtcome, houtcomes]
    exact ⟨rfl, h⟩

/-- **A run in which both take turns** looks to each of them like its own. -/
theorem interleave (h : Split given issued x y s u D E f₀ f g g') {turns : List (Turn ⊕ Turn)}
    (hleft : g.keeps x D (lefts turns) = true) (hright : g'.keeps y E (rights turns) = true) :
    lefts (f.interleave x y turns).1 = (g.run x (lefts turns)).1 ∧
      rights (f.interleave x y turns).1 = (g'.run y (rights turns)).1 ∧
      Split given issued x y s u D E f₀ (f.interleave x y turns).2 (g.run x (lefts turns)).2
        (g'.run y (rights turns)).2 := by
  induction turns generalizing f g g' with
  | nil => exact ⟨rfl, rfl, h⟩
  | cons turn rest ih =>
    cases turn with
    | inl t =>
      rw [lefts_inl] at hleft ⊢
      rw [rights_inl] at hright ⊢
      obtain ⟨hadmitted, hleft⟩ := keeps_cons.mp hleft
      obtain ⟨houtcome, h⟩ := h.turn hbeside h₀ hadmitted
      obtain ⟨hlefts, hrights, h⟩ := ih h hleft hright
      rw [interleave_inl, lefts_inl, rights_inl, run_cons, houtcome, hlefts, hrights]
      exact ⟨rfl, rfl, h⟩
    | inr t =>
      rw [lefts_inr] at hleft ⊢
      rw [rights_inr] at hright ⊢
      obtain ⟨hadmitted, hright⟩ := keeps_cons.mp hright
      obtain ⟨houtcome, h⟩ := h.symm.turn hbeside.symm h₀ hadmitted
      obtain ⟨hlefts, hrights, h⟩ := ih h.symm hleft hright
      rw [interleave_inr, lefts_inr, rights_inr, run_cons, houtcome, hlefts, hrights]
      exact ⟨rfl, rfl, h⟩

end Turns

end Split

/-! ## Independence -/

/-- Two streams do not interfere: as long as the controller of each, when its stream is alone, moves
elements in buffers of the stream's own, it makes no difference which of them takes its turns
first. -/
structure Independent (f : Fleet) (x y : Seat) (D E : Buffers) : Prop where
  /-- Two turns, one of each stream, come to the same in either order. -/
  swap : ∀ t t' : Turn, f.keeps x D [t] = true → f.keeps y E [t'] = true →
    ((f.turn y t').2.turn x t).1 = (f.turn x t).1 ∧
      ((f.turn x t).2.turn y t').1 = (f.turn y t').1 ∧
      ((f.turn x t).2.turn y t').2 = ((f.turn y t').2.turn x t).2
  /-- Any run in which both take turns comes to the same as the run of one followed by that of the
  other. -/
  leftFirst : ∀ turns, f.keeps x D (lefts turns) = true → f.keeps y E (rights turns) = true →
    lefts (f.interleave x y turns).1 = (f.run x (lefts turns)).1 ∧
      rights (f.interleave x y turns).1 = ((f.run x (lefts turns)).2.run y (rights turns)).1 ∧
      (f.interleave x y turns).2 = ((f.run x (lefts turns)).2.run y (rights turns)).2
  /-- So it does if the other goes first. -/
  rightFirst : ∀ turns, f.keeps x D (lefts turns) = true → f.keeps y E (rights turns) = true →
    lefts (f.interleave x y turns).1 = ((f.run y (rights turns)).2.run x (lefts turns)).1 ∧
      rights (f.interleave x y turns).1 = (f.run y (rights turns)).1 ∧
      (f.interleave x y turns).2 = ((f.run y (rights turns)).2.run x (lefts turns)).2

theorem Beside.independent (hbeside : f.Beside x y s u D E)
    (h₀ : Tenancy given issued f.live f.machine) : f.Independent x y D E := by
  have hstart : Split given issued x y s u D E f f f f := .refl h₀
  constructor
  · intro t t' hleft hright
    obtain ⟨hadmitted, -⟩ := keeps_cons.mp hleft
    obtain ⟨hadmitted', -⟩ := keeps_cons.mp hright
    obtain ⟨-, hx⟩ := hstart.turn hbeside h₀ hadmitted
    obtain ⟨-, hy⟩ := hstart.symm.turn hbeside.symm h₀ hadmitted'
    obtain ⟨hsecond, hxy⟩ := hx.symm.turn hbeside.symm h₀ hadmitted'
    obtain ⟨hsecond', hyx⟩ := hy.symm.turn hbeside h₀ hadmitted
    exact ⟨hsecond', hsecond, hxy.symm.eq hyx⟩
  · intro turns hleft hright
    obtain ⟨hlefts, hrights, htogether⟩ := hstart.interleave hbeside h₀ hleft hright
    obtain ⟨-, hfirst⟩ := hstart.run hbeside h₀ hleft
    obtain ⟨hsecond, hboth⟩ := hfirst.symm.run hbeside.symm h₀ hright
    exact ⟨hlefts, hrights.trans hsecond.symm, htogether.eq hboth.symm⟩
  · intro turns hleft hright
    obtain ⟨hlefts, hrights, htogether⟩ := hstart.interleave hbeside h₀ hleft hright
    obtain ⟨-, hfirst⟩ := hstart.symm.run hbeside.symm h₀ hright
    obtain ⟨hsecond, hboth⟩ := hfirst.symm.run hbeside h₀ hleft
    exact ⟨hlefts.trans hsecond.symm, hrights, htogether.eq hboth⟩

end Fleet

namespace Trial

open Fleet

/-- **Streams on different channels do not interfere.** Of all streams on a bench that came about in
any way at all, take two with different channel numbers, different hardware, and buffers of which
neither stream writes what the other reads or writes. Then two turns of theirs may change places,
and every run in which both take turns comes to the same as the run of one followed by that of the
other: both streams get the same answers and leave the same trace, and in the end every stream, every
controller, the ownership table, descriptors and bytes are the same. -/
theorem streams_independent (data : List UInt8) (numbers : List Nat) {moves : List Move}
    (hfair : (ofMemory data numbers).fair moves = true)
    (hissued : ((ofMemory data numbers).run moves).issued < UInt32.size) {x y : Seat}
    {s u : Stream} {D E : Buffers}
    (hx : ((ofMemory data numbers).run moves).bench.tenants x = some s)
    (hy : ((ofMemory data numbers).run moves).bench.tenants y = some u)
    (hnumber : s.channel.number ≠ u.channel.number)
    (hhardware : s.channel.hardware ≠ u.channel.hardware) (hbuffers : D.Apart E) :
    ((ofMemory data numbers).run moves).bench.fleet.Independent x y D E := by
  have hbeside : Beside ((ofMemory data numbers).run moves).bench.fleet x y s u D E :=
    ⟨hx, hy, hnumber, hhardware, hbuffers⟩
  have horder := (inOrder_ofMemory data numbers).run hfair hissued
  exact hbeside.independent horder

/-- Two streams are made, and the first sets its controller going. -/
def pair : Fleet :=
  ((ofMemory [] [3, 5]).run
    [.create (.stream 0 2 {}), .create (.stream 1 2 {}),
      .command (.object 0 (.stream (.append 0 64 8))),
      .command (.object 0 (.stream .enable))]).bench.fleet

/-- The first runs to its end and is dropped, while the second comes to run and fails. -/
def dialogue : List (Turn ⊕ Turn) :=
  [.inr (.call (.append 8 72 4)), .inl (.moveElements 3), .inr (.call .enable),
    .inr (.moveElements 2), .inl .finish, .inr (.call (.interrupt .busError)),
    .inl (.call (.interrupt .complete)), .inl .drop, .inr (.call (.append 12 76 4))]

/-- So many bytes to read from an address, and as many to write to another. -/
def stretches (source destination length : Nat) : Buffers where
  reads b := source ≤ b && b < source + length
  writes b := destination ≤ b && b < destination + length

theorem streams_independent_dialogue :
    lefts (pair.interleave (.object 0) (.object 1) dialogue).1 =
        (pair.run (.object 0) (lefts dialogue)).1 ∧
      rights (pair.interleave (.object 0) (.object 1) dialogue).1 =
        ((pair.run (.object 0) (lefts dialogue)).2.run (.object 1) (rights dialogue)).1 ∧
      (pair.interleave (.object 0) (.object 1) dialogue).2 =
        ((pair.run (.object 0) (lefts dialogue)).2.run (.object 1) (rights dialogue)).2 := by
  obtain ⟨s, hs⟩ : ∃ s, pair.live (.object 0) = some s := ⟨_, rfl⟩
  obtain ⟨u, hu⟩ : ∃ u, pair.live (.object 1) = some u := ⟨_, rfl⟩
  have hfirst : s.channel = ⟨3, .controller 0⟩ := by
    have h : (pair.live (.object 0)).map (·.channel) = some ⟨3, .controller 0⟩ := by
      decide +kernel
    simpa [hs] using h
  have hsecond : u.channel = ⟨5, .controller 1⟩ := by
    have h : (pair.live (.object 1)).map (·.channel) = some ⟨5, .controller 1⟩ := by
      decide +kernel
    simpa [hu] using h
  have hbuffers : (stretches 64 0 8).Apart (stretches 72 8 8) := by
    constructor <;> intro b hb <;> simp [stretches] at hb ⊢ <;> omega
  have hindependent :
      pair.Independent (.object 0) (.object 1) (stretches 64 0 8) (stretches 72 8 8) :=
    streams_independent [] [3, 5] (by decide +kernel) (by decide +kernel) hs hu
      (by simp [hfirst, hsecond]) (by simp [hfirst, hsecond]) hbuffers
  exact hindependent.leftFirst dialogue (by decide +kernel) (by decide +kernel)

end Trial

end ScatterGather

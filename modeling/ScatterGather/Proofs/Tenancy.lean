import ScatterGather.Bench
import ScatterGather.Proofs.PumpTending
import ScatterGather.Proofs.Soundness

/-!
# ScatterGather.Proofs.Tenancy — streams that share a machine

Streams live on objects and in slots (`Seat`), and which one lives where is a `Seating`. `Tenancy`
is what holds of all of them together at all times: each is in order (`Stream.Housed`), no two share
an owner or a descriptor (`Stream.Apart`), whoever is on record as an owner is one of them or was
given its identity, and a controller runs only for one of them that is bound.

Each way in which a seating can change has one lemma: a stream is tended to, made, moved to other
descriptors or to another seat, or leaves. So have the machine's own moves, and what strangers do
with identities that were given to them.
-/

namespace ScatterGather

/-- Where a stream can live. -/
inductive Seat where
  | object (place : Nat)
  | slot (place : Nat)
  deriving DecidableEq

/-- Which stream lives where. -/
abbrev Seating : Type :=
  Seat → Option Stream

namespace Seating

variable {live : Seating} {x y : Seat} {tenant : Option Stream} {t : Stream}

def set (live : Seating) (x : Seat) (tenant : Option Stream) : Seating :=
  fun y => if y = x then tenant else live y

@[simp] theorem set_self : live.set x tenant x = tenant := if_pos rfl

theorem set_of_ne (h : y ≠ x) : live.set x tenant y = live y := if_neg h

@[simp] theorem set_set {tenant' : Option Stream} :
    (live.set x tenant).set x tenant' = live.set x tenant' := by
  funext y
  unfold set
  split <;> rfl

theorem set_comm (h : x ≠ y) {tenant' : Option Stream} :
    (live.set x tenant).set y tenant' = (live.set y tenant').set x tenant := by
  funext z
  unfold set
  by_cases hx : z = x
  · simp [hx, h]
  · simp [hx]

theorem set_eq_self (h : live x = tenant) : live.set x tenant = live := by
  funext y
  unfold set
  split
  · next hy => rw [hy, h]
  · rfl

theorem set_eq_some : live.set x tenant y = some t ↔
    y = x ∧ tenant = some t ∨ y ≠ x ∧ live y = some t := by
  unfold set
  split <;> simp [*]

end Seating

/-! ## Fresh rows -/

namespace DescriptorTable

variable {t : DescriptorTable}

theorem size_allocate (t : DescriptorTable) (count : Nat) :
    t.cells.size + count ≤ (t.allocate count).2.cells.size := by
  simp only [allocate, Array.size_append, Array.size_replicate]
  omega

/-- Fresh cells are as empty as what was read there before. -/
theorem read_allocate (t : DescriptorTable) (count a : Nat) :
    (t.allocate count).2.read a = t.read a := by
  unfold read
  cases cellAt a with
  | none => rfl
  | some cell =>
    simp only [allocate, Array.getD_eq_getD_getElem?, Array.getElem?_append,
      Array.getElem?_replicate]
    split
    · rfl
    · next hout =>
      rw [Array.getElem?_eq_none (Nat.not_lt.mp hout)]
      split <;> rfl

theorem read_copyRow_of_ne (t : DescriptorTable) (source target count : Nat) {a : Nat}
    (ha : ∀ k < count, a ≠ target + k * Descriptor.size) :
    (t.copyRow source target count).read a = t.read a := by
  induction count generalizing t source target with
  | zero => rfl
  | succ count ih =>
    have hfirst : target ≠ a := by
      have := ha 0 (by omega)
      simpa using this.symm
    rw [copyRow, ih, read_put_of_ne _ hfirst]
    intro k hk heq
    refine ha (k + 1) (by omega) ?_
    rw [heq, Nat.add_mul]
    omega

end DescriptorTable

namespace Pool

/-- A row that was just laid out has no descriptor of the table before. -/
theorem not_hasCell_fresh {p : Pool} {t : DescriptorTable}
    (hbase : p.base = DescriptorTable.address t.cells.size) {a : Nat} (ha : p.InRow a) :
    ¬t.HasCell a := by
  obtain ⟨slot, -, rfl⟩ := ha
  rintro ⟨cell, hcell, heq⟩
  simp only [addressOf, hbase, DescriptorTable.address, Descriptor.size] at heq
  omega

end Pool

/-! ## Streams beside each other -/

namespace Stream

/-- Two streams that share neither an owner nor a descriptor. -/
structure Apart (s t : Stream) : Prop where
  owner : s.owner ≠ t.owner
  row : ∀ a, s.pool.InRow a → ¬t.pool.InRow a

/-- A stream that is in order among others: it is seated, its hardware goes with its channel, and
its owner is one of those handed out, but not to a stranger. -/
structure Housed (given : List OwnerId) (issued : Nat) (s : Stream) (m : Machine) : Prop where
  seated : s.Seated m
  wired : ∀ i, s.channel.hardware = .controller i → (m.controller i).number = s.channel.number
  known : s.owner.raw.toNat < issued
  native : s.owner ∉ given

variable {s s' t t' : Stream} {m m' : Machine} {given : List OwnerId} {issued : Nat}

theorem Apart.symm (h : s.Apart t) : t.Apart s :=
  ⟨h.owner.symm, fun a ht hs => h.row a hs ht⟩

/-- Being apart is a matter of owners and rows. -/
theorem Apart.congr (h : s.Apart t) (howner : s'.owner = s.owner)
    (hbase : s'.pool.base = s.pool.base) (hcapacity : s'.pool.capacity = s.pool.capacity) :
    s'.Apart t := by
  refine ⟨howner ▸ h.owner, ?_⟩
  unfold Pool.InRow Pool.addressOf
  rw [hbase, hcapacity]
  exact h.row

/-- What happens outside a stream's row, to other owners' records and to other controllers leaves
the stream seated. -/
theorem Seated.congr (hs : s.Seated m) (hsize : m.table.cells.size ≤ m'.table.cells.size)
    (hread : ∀ a, s.pool.InRow a → m'.table.read a = m.table.read a)
    (howner : ∀ channel,
      m'.ownership.owner channel = some s.owner ↔ m.ownership.owner channel = some s.owner)
    (hcurrent : s.bound = true → ∀ i, s.channel.hardware = .controller i →
      (m'.controller i).current = (m.controller i).current) : s.Seated m' where
  number_lt := hs.number_lt
  fits := hs.fits.mono hsize
  recorded channel := (howner channel).trans (hs.recorded channel)
  fenced := by
    intro hb
    obtain ⟨C, hC⟩ := hs.fenced hb
    refine ⟨C, hC.row, ?_, hC.queued, ?_⟩
    · exact hC.closed.congr fun a ha => by rw [hread a (hC.row a ha)]
    · intro i hi
      rw [hcurrent hb i hi]
      exact hC.current i hi

/-- A stream that is tended to does not unseat another. -/
theorem Housed.beside (ht : t.Housed given issued m) (hs : s.Housed given issued m)
    (h : s.Tended m s' m') (hapart : t.Apart s) : t.Housed given issued m' := by
  refine ⟨ht.seated.congr (Nat.le_of_eq h.size.symm) ?_ ?_ ?_, ?_, ht.known, ht.native⟩
  · intro a ha
    exact h.outside a (hapart.row a ha)
  · intro channel
    exact h.owners channel _ hapart.owner
  · intro hb i hi
    by_cases hsi : s.channel.hardware = .controller i
    · -- the two share a channel, and it is held by this one
      have hnumber : s.channel.number = t.channel.number :=
        (hs.wired i hsi).symm.trans (ht.wired i hi)
      have hheld : m.ownership.owner s.channel.number = some t.owner := by
        rw [hnumber]
        exact (ht.seated.recorded _).mpr ⟨rfl, hb⟩
      exact h.foreign _ hheld hapart.owner i
    · exact h.elsewhere i hsi
  · intro i hi
    rw [h.number]
    exact ht.wired i hi

/-- A stream with a row of its own and an owner of its own is apart from those before it. -/
theorem Housed.apart_fresh (ht : t.Housed given issued m)
    (hbase : s.pool.base = DescriptorTable.address m.table.cells.size)
    (howner : t.owner ≠ s.owner) : t.Apart s :=
  ⟨howner, fun _ hta hsa => Pool.not_hasCell_fresh hbase hsa (ht.seated.fits.hasCell hta)⟩

theorem Housed.tended (hs : s.Housed given issued m) (h : s.Tended m s' m') :
    s'.Housed given issued m' where
  seated := h.seated
  wired i hi := by
    rw [h.number, h.channel]
    exact hs.wired i (h.channel ▸ hi)
  known := h.owner ▸ hs.known
  native := h.owner ▸ hs.native

end Stream

/-! ## All streams together -/

/-- What holds of all streams of a machine together, where so many identities were handed out and
some of them given to strangers. -/
structure Tenancy (given : List OwnerId) (issued : Nat) (live : Seating) (m : Machine) : Prop where
  housed : ∀ x s, live x = some s → s.Housed given issued m
  apart : ∀ x y s t, live x = some s → live y = some t → x ≠ y → s.Apart t
  /-- An owner on record was given its identity, or lives here. -/
  recorded : ∀ channel o, m.ownership.owner channel = some o →
    o ∈ given ∨ ∃ x s, live x = some s ∧ s.owner = o
  /-- A controller runs only for a stream that is bound. -/
  driven : ∀ i, (m.controller i).current = 0 ∨
    ∃ x s, live x = some s ∧ s.bound = true ∧ s.channel.hardware = .controller i
  given_known : ∀ o ∈ given, o.raw.toNat < issued
  counted : m.ownership.nextOwner.toNat = issued

namespace Tenancy

variable {given : List OwnerId} {issued : Nat} {live : Seating} {m m' : Machine} {x y : Seat}
  {s s' : Stream}

/-- One stream is tended to. -/
theorem tend (h : Tenancy given issued live m) (hx : live x = some s) (ht : s.Tended m s' m') :
    Tenancy given issued (live.set x (some s')) m' where
  housed y t hy := by
    rcases Seating.set_eq_some.mp hy with ⟨rfl, heq⟩ | ⟨hne, hy⟩
    · cases heq
      exact (h.housed _ s hx).tended ht
    · exact (h.housed y t hy).beside (h.housed x s hx) ht (h.apart y x t s hy hx hne)
  apart y z t u hy hz hne := by
    have hsame {u : Stream} (h : s.Apart u) : s'.Apart u := h.congr ht.owner ht.base ht.capacity
    rcases Seating.set_eq_some.mp hy with ⟨rfl, heq⟩ | ⟨-, hold⟩
    · cases heq
      rcases Seating.set_eq_some.mp hz with ⟨rfl, -⟩ | ⟨-, hold⟩
      · exact absurd rfl hne
      · exact hsame (h.apart _ z s u hx hold hne)
    · rcases Seating.set_eq_some.mp hz with ⟨rfl, heq⟩ | ⟨-, hold'⟩
      · cases heq
        exact (hsame (h.apart _ y s t hx hold hne.symm)).symm
      · exact h.apart y z t u hold hold' hne
  recorded channel o ho := by
    by_cases hos : o = s.owner
    · exact .inr ⟨x, s', Seating.set_self, ht.owner.trans hos.symm⟩
    · rcases h.recorded channel o ((ht.owners channel o hos).mp ho) with hgiven | ⟨y, t, hy, hto⟩
      · exact .inl hgiven
      · have hyx : y ≠ x := by
          rintro rfl
          rw [hx] at hy
          cases hy
          exact hos hto.symm
        exact .inr ⟨y, t, (Seating.set_of_ne hyx).trans hy, hto⟩
  driven i := by
    -- another stream that drives a controller is still there and still does
    have hothers (hs : s.bound = true → s.channel.hardware ≠ .controller i)
        (hold : ∃ y t, live y = some t ∧ t.bound = true ∧ t.channel.hardware = .controller i) :
        ∃ y t, live.set x (some s') y = some t ∧ t.bound = true ∧
          t.channel.hardware = .controller i := by
      obtain ⟨y, t, hy, hb, hi⟩ := hold
      refine ⟨y, t, (Seating.set_of_ne ?_).trans hy, hb, hi⟩
      rintro rfl
      rw [hx] at hy
      cases hy
      exact hs hb hi
    by_cases hi : s.channel.hardware = .controller i
    · cases hb : s'.bound with
      | true => exact .inr ⟨x, s', Seating.set_self, hb, ht.channel ▸ hi⟩
      | false =>
        rcases ht.rest hb i hi with hstop | ⟨hsb, hsame⟩
        · exact .inl hstop
        · rw [hsame]
          exact (h.driven i).imp_right (hothers (by simp [hsb]))
    · rw [ht.elsewhere i hi]
      exact (h.driven i).imp_right (hothers fun _ => hi)
  given_known := h.given_known
  counted := by
    rw [ht.nextOwner]
    exact h.counted

/-- Streams take other seats, and some that hold nothing leave. -/
theorem reseat {live' : Seating} (h : Tenancy given issued live m) (former : Seat → Seat)
    (hback : ∀ y t, live' y = some t → live (former y) = some t)
    (hinj : ∀ y z t u, live' y = some t → live' z = some u → former y = former z → y = z)
    (hstay : ∀ y t, live y = some t → t.bound = true → ∃ z, live' z = some t) :
    Tenancy given issued live' m where
  housed y t hy := h.housed _ t (hback y t hy)
  apart y z t u hy hz hne :=
    h.apart _ _ t u (hback y t hy) (hback z u hz) fun heq => hne (hinj y z t u hy hz heq)
  recorded channel o ho := by
    refine (h.recorded channel o ho).imp_right ?_
    rintro ⟨y, t, hy, rfl⟩
    -- whoever is on record is bound
    obtain ⟨-, hb⟩ := ((h.housed y t hy).seated.recorded channel).mp ho
    obtain ⟨z, hz⟩ := hstay y t hy hb
    exact ⟨z, t, hz, rfl⟩
  driven i := by
    refine (h.driven i).imp_right ?_
    rintro ⟨y, t, hy, hb, hi⟩
    obtain ⟨z, hz⟩ := hstay y t hy hb
    exact ⟨z, t, hz, hb, hi⟩
  given_known := h.given_known
  counted := h.counted

/-- A stream that holds nothing leaves. -/
theorem leave (h : Tenancy given issued live m) (hx : live x = some s) (hb : s.bound = false) :
    Tenancy given issued (live.set x none) m := by
  refine h.reseat id ?_ (fun _ _ _ _ _ _ heq => heq) ?_
  · intro y t hy
    rcases Seating.set_eq_some.mp hy with ⟨-, heq⟩ | ⟨-, hy⟩
    · cases heq
    · exact hy
  · intro y t hy hbound
    refine ⟨y, (Seating.set_of_ne ?_).trans hy⟩
    rintro rfl
    rw [hx] at hy
    cases hy
    rw [hb] at hbound
    cases hbound

/-- A stream takes another seat. -/
theorem move (h : Tenancy given issued live m) (hx : live x = some s) (hy : live y = none) :
    Tenancy given issued ((live.set x none).set y (some s)) m := by
  have hxy : x ≠ y := by
    rintro rfl
    rw [hx] at hy
    cases hy
  -- nobody is left where the stream was
  have hgone (t : Stream) : (live.set x none).set y (some s) x ≠ some t := by
    rw [Seating.set_of_ne hxy, Seating.set_self]
    nofun
  refine h.reseat (fun z => if z = y then x else z) ?_ ?_ ?_
  · intro z t hz
    show live (if z = y then x else z) = some t
    split
    · next hzy =>
      rw [hzy, Seating.set_self] at hz
      rw [hx, hz]
    · next hzy =>
      rw [Seating.set_of_ne hzy] at hz
      rcases Seating.set_eq_some.mp hz with ⟨-, heq⟩ | ⟨-, hz⟩
      · cases heq
      · exact hz
  · intro z w t u hz hw heq
    have heq : (if z = y then x else z) = if w = y then x else w := heq
    split at heq <;> split at heq
    · next h₁ h₂ => rw [h₁, h₂]
    · exact absurd (heq ▸ hw) (hgone u)
    · exact absurd (heq ▸ hz) (hgone t)
    · exact heq
  · intro z t hz _
    by_cases hzx : z = x
    · refine ⟨y, Seating.set_self.trans ?_⟩
      rw [← hx, ← hz, hzx]
    · have hzy : z ≠ y := by
        rintro rfl
        rw [hy] at hz
        cases hz
      exact ⟨z, by rw [Seating.set_of_ne hzy, Seating.set_of_ne hzx, hz]⟩

/-- A stream gives its channel back and leaves. -/
theorem drop (h : Tenancy given issued live m) (hx : live x = some s) :
    Tenancy given issued (live.set x none) (m.exec s.channel.hardware s.releaseIfBound).2 := by
  obtain ⟨hb, ht⟩ := Stream.tends_releaseIfBound m (h.housed x s hx).seated
  have hleft := (h.tend hx ht).leave Seating.set_self hb
  rwa [Seating.set_set] at hleft

/-- Whoever has a seat, if anybody, gives its channel back and leaves. -/
theorem vacate (h : Tenancy given issued live m) (x : Seat) :
    Tenancy given issued (live.set x none)
      ((live x).elim m fun s => (m.exec s.channel.hardware s.releaseIfBound).2) := by
  cases hx : live x with
  | none =>
    rw [Seating.set_eq_self hx]
    exact h
  | some s => exact h.drop hx

/-! ### What others do to the machine -/

/-- Strangers deal with what is theirs, and nobody moves. -/
theorem outside (h : Tenancy given issued live m) (htable : m'.table = m.table)
    (hrecords : ∀ channel o, o ∉ given →
      (m'.ownership.owner channel = some o ↔ m.ownership.owner channel = some o))
    (hnext : m'.ownership.nextOwner = m.ownership.nextOwner)
    (hnumber : ∀ i, (m'.controller i).number = (m.controller i).number)
    (hcurrent : ∀ i, (m'.controller i).current = (m.controller i).current) :
    Tenancy given issued live m' where
  housed y t hy := by
    have ht := h.housed y t hy
    refine ⟨ht.seated.congr ?_ ?_ ?_ ?_, ?_, ht.known, ht.native⟩
    · exact Nat.le_of_eq (by rw [htable])
    · intro a _
      rw [htable]
    · intro channel
      exact hrecords channel _ ht.native
    · intro _ i _
      exact hcurrent i
    · intro i hi
      rw [hnumber]
      exact ht.wired i hi
  apart := h.apart
  recorded channel o ho := by
    by_cases hgiven : o ∈ given
    · exact .inl hgiven
    · exact h.recorded channel o ((hrecords channel o hgiven).mp ho)
  driven i := by
    rw [hcurrent]
    exact h.driven i
  given_known := h.given_known
  counted := by
    rw [hnext]
    exact h.counted

theorem undisturbed (h : Tenancy given issued live m) (hm : m.Undisturbed m') :
    Tenancy given issued live m' :=
  h.outside hm.table (fun _ _ _ => by rw [hm.ownership]) (by rw [hm.ownership]) hm.number hm.current

/-- A controller goes on. -/
theorem drift (h : Tenancy given issued live m) {i : Nat} (hd : Machine.Drift i m m') :
    Tenancy given issued live m' where
  housed y t hy := by
    have ht := h.housed y t hy
    refine ⟨ht.seated.drifted hd, ?_, ht.known, ht.native⟩
    intro j hj
    rw [hd.number]
    exact ht.wired j hj
  apart := h.apart
  recorded channel o ho := h.recorded channel o (hd.ownership ▸ ho)
  driven j := by
    rcases h.driven j with hstop | hdriver
    · left
      by_cases hji : j = i
      · -- a controller that has stopped leads nowhere
        subst hji
        exact (hd.led.inside (fun _ => False) (fun _ => False.elim) (.inl hstop)).resolve_right id
      · rw [(hd.others j hji).2, hstop]
    · exact .inr hdriver
  given_known := h.given_known
  counted := by
    rw [hd.ownership]
    exact h.counted

/-- A stranger claims a channel with an identity that was given to it. -/
theorem bind_given (h : Tenancy given issued live m) (channel : Nat) {o : OwnerId}
    (ho : o ∈ given) : Tenancy given issued live (m.bind channel o).2 := by
  cases hresult : (m.bind channel o).1 with
  | error e => exact h.undisturbed (Machine.undisturbed_refused hresult)
  | ok u =>
    rw [Machine.bind_of_granted hresult]
    refine h.outside rfl ?_ Ownership.nextOwner_bind (fun _ => rfl) (fun _ => rfl)
    intro other p hp
    have hne : p ≠ o := by
      rintro rfl
      exact hp ho
    exact Ownership.owner_bind_of_ne hne other

/-- A stranger gives back a channel with an identity that was given to it. -/
theorem release_given (h : Tenancy given issued live m) (channel : Nat) {o : OwnerId}
    (ho : o ∈ given) :
    Tenancy given issued live
      { m with ownership := (m.ownership.release channel o).2 } := by
  refine h.outside rfl ?_ Ownership.nextOwner_release (fun _ => rfl) (fun _ => rfl)
  intro other p hp
  have hne : p ≠ o := by
    rintro rfl
    exact hp ho
  exact Ownership.owner_release_of_ne hne other

/-! ### New identities and new descriptors -/

theorem counted_allocate (h : Tenancy given issued live m) (hissued : issued + 1 < UInt32.size) :
    m.ownership.allocate.2.nextOwner.toNat = issued + 1 := by
  show (m.ownership.nextOwner + 1).toNat = issued + 1
  rw [UInt32.toNat_add, h.counted]
  exact Nat.mod_eq_of_lt hissued

/-- A stranger is given an identity. -/
theorem give (h : Tenancy given issued live m) (hissued : issued + 1 < UInt32.size) :
    Tenancy (m.ownership.allocate.1 :: given) (issued + 1) live
      { m with ownership := m.ownership.allocate.2 } where
  housed y t hy := by
    have ht := h.housed y t hy
    refine ⟨ht.seated.congr (Nat.le_refl _) (fun _ _ => rfl) (fun _ => .rfl) (fun _ _ _ => rfl),
      ht.wired, Nat.lt_succ_of_lt ht.known, ?_⟩
    -- the identity is one that nobody here has
    intro hmem
    rcases List.mem_cons.mp hmem with heq | hmem
    · have hlt := ht.known
      rw [heq] at hlt
      exact absurd h.counted (Nat.ne_of_lt hlt)
    · exact ht.native hmem
  apart := h.apart
  recorded channel o ho := (h.recorded channel o ho).imp_left (List.mem_cons_of_mem _)
  driven := h.driven
  given_known o ho := by
    rcases List.mem_cons.mp ho with rfl | ho
    · exact Nat.lt_succ_of_le (Nat.le_of_eq h.counted)
    · exact Nat.lt_succ_of_lt (h.given_known o ho)
  counted := h.counted_allocate hissued

/-- A seat gets a new tenant, in place of one that holds nothing, on fresh descriptors. -/
theorem house {issued' : Nat} (h : Tenancy given issued live m)
    (hfree : ∀ s, live x = some s → s.bound = false) (hs' : s'.Housed given issued' m')
    (hapart : ∀ y t, y ≠ x → live y = some t → t.Apart s')
    (hsize : m.table.cells.size ≤ m'.table.cells.size)
    (hread : ∀ a, m.table.HasCell a → m'.table.read a = m.table.read a)
    (hrecords : ∀ channel, m'.ownership.owner channel = m.ownership.owner channel)
    (hcontrollers : m'.controllers = m.controllers)
    (hissued : issued ≤ issued') (hcounted : m'.ownership.nextOwner.toNat = issued') :
    Tenancy given issued' (live.set x (some s')) m' := by
  have hcontroller (i : Nat) : m'.controller i = m.controller i := by
    unfold Machine.controller
    rw [hcontrollers]
  constructor
  · intro y t hy
    rcases Seating.set_eq_some.mp hy with ⟨-, heq⟩ | ⟨-, hold⟩
    · cases heq
      exact hs'
    · have ht := h.housed y t hold
      refine ⟨ht.seated.congr hsize ?_ ?_ ?_, ?_, Nat.lt_of_lt_of_le ht.known hissued, ht.native⟩
      · intro a ha
        exact hread a (ht.seated.fits.hasCell ha)
      · intro channel
        rw [hrecords]
      · intro _ i _
        rw [hcontroller]
      · intro i hi
        rw [hcontroller]
        exact ht.wired i hi
  · intro y z t u hy hz hne
    rcases Seating.set_eq_some.mp hy with ⟨rfl, heq⟩ | ⟨hyx, hold⟩
    · cases heq
      rcases Seating.set_eq_some.mp hz with ⟨rfl, -⟩ | ⟨hzx, hold⟩
      · exact absurd rfl hne
      · exact (hapart z u hzx hold).symm
    · rcases Seating.set_eq_some.mp hz with ⟨rfl, heq⟩ | ⟨-, hold'⟩
      · cases heq
        exact hapart y t hyx hold
      · exact h.apart y z t u hold hold' hne
  · intro channel o ho
    rw [hrecords] at ho
    refine (h.recorded channel o ho).imp_right ?_
    rintro ⟨y, t, hy, rfl⟩
    refine ⟨y, t, (Seating.set_of_ne ?_).trans hy, rfl⟩
    rintro rfl
    have hb := (((h.housed y t hy).seated.recorded channel).mp ho).2
    rw [hfree t hy] at hb
    cases hb
  · intro i
    rw [hcontroller]
    refine (h.driven i).imp_right ?_
    rintro ⟨y, t, hy, hb, hi⟩
    refine ⟨y, t, (Seating.set_of_ne ?_).trans hy, hb, hi⟩
    rintro rfl
    rw [hfree t hy] at hb
    cases hb
  · intro o ho
    exact Nat.lt_of_lt_of_le (h.given_known o ho) hissued
  · exact hcounted

/-- A stream is made. -/
theorem join (h : Tenancy given issued live m) (hissued : issued + 1 < UInt32.size)
    {channel : Channel}
    (hwired : ∀ i, channel.hardware = .controller i → (m.controller i).number = channel.number)
    {capacity : Nat} {config : StreamConfig}
    (hmade : m.createStream channel capacity config = (.ok s', m')) (hx : live x = none) :
    Tenancy given (issued + 1) (live.set x (some s')) m' := by
  rcases m.createStream_cases channel capacity config with ⟨e, herror⟩ | ⟨hlt, hok⟩
  · rw [herror] at hmade
    cases hmade
  rw [hok] at hmade
  cases hmade
  have hfresh (o : OwnerId) (ho : o.raw.toNat < issued) : o ≠ m.ownership.allocate.1 := by
    rintro rfl
    exact absurd h.counted (Nat.ne_of_lt ho)
  have hsize := m.table.size_allocate capacity
  refine h.house ?_ ⟨⟨hlt, ?_, ?_, nofun⟩, hwired, ?_, ?_⟩ ?_
    (Nat.le_trans (Nat.le_add_right ..) hsize) ?_ (fun _ => rfl) rfl (Nat.le_succ _)
    (h.counted_allocate hissued)
  · intro s hs
    rw [hx] at hs
    cases hs
  · exact ⟨Nat.zero_le _, id, m.table.cells.size, rfl, hsize⟩
  · -- an identity that was not handed out yet is not on record
    intro other
    refine ⟨fun hrecord => ?_, fun hb => nomatch hb.2⟩
    rcases h.recorded other _ hrecord with hgiven | ⟨y, t, hy, heq⟩
    · exact absurd rfl (hfresh _ (h.given_known _ hgiven))
    · exact absurd heq (hfresh _ (h.housed y t hy).known)
  · exact Nat.lt_succ_of_le (Nat.le_of_eq h.counted)
  · intro hgiven
    exact hfresh _ (h.given_known _ hgiven) rfl
  · intro y t _ hy
    exact (h.housed y t hy).apart_fresh rfl (hfresh _ (h.housed y t hy).known)
  · intro a _
    exact m.table.read_allocate capacity a

/-- A stream that holds nothing is moved to other descriptors. -/
theorem relocate (h : Tenancy given issued live m) (hx : live x = some s) (hb : s.bound = false) :
    Tenancy given issued (live.set x (some (m.relocate s).1)) (m.relocate s).2 := by
  have hs := h.housed x s hx
  have hbase : (m.relocate s).1.pool.base = DescriptorTable.address m.table.cells.size := rfl
  have hsize : m.table.cells.size + s.pool.capacity ≤ (m.relocate s).2.table.cells.size := by
    show _ ≤ (DescriptorTable.copyRow ..).cells.size
    rw [Stream.size_copyRow]
    exact m.table.size_allocate _
  refine h.house ?_ ⟨⟨hs.seated.number_lt, ?_, hs.seated.recorded, ?_⟩, hs.wired, hs.known,
    hs.native⟩ ?_ (by omega) ?_ (fun _ => rfl) rfl (Nat.le_refl _) h.counted
  · intro s' hs'
    rw [hx] at hs'
    cases hs'
    exact hb
  · exact ⟨hs.seated.fits.queued_le, hs.seated.fits.head_lt, m.table.cells.size, rfl, hsize⟩
  · intro hbound
    have hbound : s.bound = true := hbound
    rw [hb] at hbound
    cases hbound
  · intro y t hyx hy
    exact (h.housed y t hy).apart_fresh hbase (h.apart y x t s hy hx hyx).owner
  · intro a ha
    refine (DescriptorTable.read_copyRow_of_ne _ _ _ _ ?_).trans (m.table.read_allocate _ a)
    rintro k hk rfl
    exact Pool.not_hasCell_fresh hbase ⟨k, hk, rfl⟩ ha

/-- A stream that holds nothing is moved to other descriptors and takes another seat, whose tenant
leaves. -/
theorem transfer (h : Tenancy given issued live m) (hx : live x = some s) (hb : s.bound = false)
    (hxy : x ≠ y) :
    Tenancy given issued ((live.set x none).set y (some (m.relocate s).1))
      ((live y).elim (m.relocate s).2 fun t =>
        ((m.relocate s).2.exec t.channel.hardware t.releaseIfBound).2) := by
  have hvacant := (h.relocate hx hb).vacate y
  rw [Seating.set_of_ne hxy.symm] at hvacant
  have hmoved := hvacant.move (x := x) (y := y)
    ((Seating.set_of_ne hxy).trans Seating.set_self) Seating.set_self
  rw [Seating.set_comm hxy.symm, Seating.set_set, Seating.set_set] at hmoved
  exact hmoved

/-! ### What the streams can rely on -/

theorem flag (h : Tenancy given issued live m) (hx : live x = some s) :
    s.bound = true ↔ m.ownership.owner s.channel.number = some s.owner := by
  rw [(h.housed x s hx).seated.recorded]
  simp

/-- Whoever is on record was given its identity, or is a stream here that holds the channel. -/
theorem held (h : Tenancy given issued live m) {channel : Nat} {o : OwnerId}
    (ho : m.ownership.owner channel = some o) :
    o ∈ given ∨ ∃ x s, live x = some s ∧ s.bound = true ∧ s.channel.number = channel ∧
      s.owner = o := by
  refine (h.recorded channel o ho).imp_right ?_
  rintro ⟨x, s, hx, rfl⟩
  obtain ⟨hchannel, hb⟩ := ((h.housed x s hx).seated.recorded channel).mp ho
  exact ⟨x, s, hx, hb, hchannel.symm, rfl⟩

theorem distinct (h : Tenancy given issued live m) (hx : live x = some s) (hy : live y = some s')
    (howner : s.owner = s'.owner) : x = y := by
  by_cases hxy : x = y
  · exact hxy
  · exact absurd howner (h.apart x y s s' hx hy hxy).owner

/-- No two streams hold one channel. -/
theorem alone (h : Tenancy given issued live m) (hx : live x = some s) (hy : live y = some s')
    (hb : s.bound = true) (hb' : s'.bound = true) (hnumber : s.channel.number = s'.channel.number) :
    x = y := by
  have hheld := (h.flag hx).mp hb
  rw [hnumber, (h.flag hy).mp hb'] at hheld
  exact h.distinct hx hy (Option.some.inj hheld).symm

/-- Two streams on one controller share its channel. -/
theorem same_number (h : Tenancy given issued live m) (hx : live x = some s)
    (hy : live y = some s') {i : Nat} (hi : s.channel.hardware = .controller i)
    (hi' : s'.channel.hardware = .controller i) : s.channel.number = s'.channel.number :=
  ((h.housed x s hx).wired i hi).symm.trans ((h.housed y s' hy).wired i hi')

/-- A running controller is among the descriptors of a stream on it that holds its channel. -/
theorem driver (h : Tenancy given issued live m) {i : Nat} (hc : (m.controller i).current ≠ 0) :
    ∃ x s, live x = some s ∧ s.bound = true ∧ s.channel.hardware = .controller i ∧
      s.pool.InRow (m.controller i).current := by
  obtain ⟨x, s, hx, hb, hi⟩ := (h.driven i).resolve_left hc
  obtain ⟨C, hC⟩ := (h.housed x s hx).seated.fenced hb
  exact ⟨x, s, hx, hb, hi, hC.row _ ((hC.current i hi).resolve_left hc)⟩

end Tenancy

end ScatterGather

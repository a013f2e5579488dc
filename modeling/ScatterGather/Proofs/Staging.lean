import ScatterGather.Proofs.Reception

/-!
# ScatterGather.Proofs.Staging — a receive pump while it receives

While a receive pump runs, its controller fills the two halves of the staging area in turn, for
ever. `Receiving` relates the machine to the list of all bytes received since the start. It counts
three things: the halves that the controller has finished, the halves whose completion was handled
(at most one fewer), and the bytes that were consumed, that is, moved out of the staging area.

The half being filled holds the last bytes received, and a half that waits for its completion to be
handled holds the `half` bytes before them. Bytes are consumed from a place in the first half that
was not handled. When an idle line has consumed a half to its end before the controller went on,
that place is the end of the half (`half` or `2 * half`), and goes back to the start of the other
half only with the completion. -/

namespace ScatterGather

namespace ReceivePump

/-- The address of a half, if the two halves of the staging area are counted in turn. -/
def halfAddress (p : ReceivePump) (n : Nat) : Nat :=
  p.staging + n % 2 * p.half

/-- The block that fills a half. -/
def halfBlock (p : ReceivePump) (n : Nat) : Block :=
  (TransferSettings.peripheralToMemory .byte).block (p.halfAddress n) p.source p.half

/-- What holds of a receive pump while it receives. -/
structure Receiving (p : ReceivePump) (v : Scene) (received : List UInt8)
    (finished handled consumed : Nat) : Prop where
  fit : p.Fit v
  sound : p.stream.Sound v (finished % 2)
  bound : p.stream.bound = true
  queued : p.stream.pool.queued = 2
  blocks : ∀ n < 2, (v.table.read (p.stream.pool.addressAt n)).block = p.halfBlock n
  armed : ∀ n < 2, (v.table.read (p.stream.pool.addressAt n)).interrupts = true
  remaining_le : v.remaining ≤ p.half
  count : received.length + v.remaining = (finished + 1) * p.half
  filling : v.memory.readList (p.halfAddress finished) (p.half - v.remaining) =
    received.drop (finished * p.half)
  waiting : finished = handled + 1 →
    v.memory.readList (p.halfAddress handled) p.half =
      (received.drop (handled * p.half)).take p.half
  lag : finished = handled ∨ finished = handled + 1
  consumed_ge : handled * p.half ≤ consumed
  consumed_le : consumed ≤ (handled + 1) * p.half
  consumed_received : consumed ≤ received.length
  position : p.position = handled % 2 * p.half + (consumed - handled * p.half)

variable {p : ReceivePump} {v : Scene} {received : List UInt8} {finished handled consumed : Nat}

/-! ## Halves -/

theorem halfAddress_mod (n : Nat) : p.halfAddress (n % 2) = p.halfAddress n := by
  rw [halfAddress, halfAddress, Nat.mod_mod]

theorem halfBlock_mod (n : Nat) : p.halfBlock (n % 2) = p.halfBlock n := by
  rw [halfBlock, halfBlock, halfAddress_mod]

/-- A half lies in the staging area. -/
theorem halfAddress_bounds (p : ReceivePump) (n : Nat) :
    p.staging ≤ p.halfAddress n ∧ p.halfAddress n + p.half ≤ p.staging + 2 * p.half := by
  unfold halfAddress
  rcases Nat.mod_two_eq_zero_or_one n with h | h <;> rw [h] <;> omega

/-- A half does not meet the next. -/
theorem halfAddress_succ (p : ReceivePump) (n : Nat) :
    p.halfAddress (n + 1) + p.half ≤ p.halfAddress n ∨
      p.halfAddress n + p.half ≤ p.halfAddress (n + 1) := by
  unfold halfAddress
  rcases Nat.mod_two_eq_zero_or_one n with h | h
  · have h' : (n + 1) % 2 = 1 := by omega
    rw [h, h']
    omega
  · have h' : (n + 1) % 2 = 0 := by omega
    rw [h, h']
    omega

/-! ## The controller -/

theorem Receiving.circular (h : p.Receiving v received finished handled consumed) :
    p.stream.isCircular = true := by
  rw [Stream.isCircular, h.fit.config]
  rfl

/-- The controller executes the block of the half that is being filled. -/
theorem Receiving.current_eq (h : p.Receiving v received finished handled consumed) :
    v.current = p.stream.pool.addressAt (finished % 2) ∧ v.current ≠ 0 := by
  have he := h.sound.engaged h.bound
  have hne := he.circular h.circular
  exact ⟨(he.stands.executing hne).2, hne⟩

theorem Receiving.block_current (h : p.Receiving v received finished handled consumed) :
    (v.table.read v.current).block = p.halfBlock finished := by
  rw [h.current_eq.1, h.blocks _ (Nat.mod_lt _ (by decide)), halfBlock_mod]

/-- The pump finds the half that is being filled. -/
theorem Receiving.fillingHalf_eq (h : p.Receiving v received finished handled consumed) :
    p.fillingHalf v = finished % 2 := by
  rw [fillingHalf, if_pos h.bound, h.sound.standing_eq h.bound, h.queued]
  rcases Nat.mod_two_eq_zero_or_one finished with hm | hm
  · rw [hm]
    rfl
  · rw [hm]
    rfl

/-- The bytes that the half being filled still lacks. -/
theorem Receiving.leftover_eq (h : p.Receiving v received finished handled consumed) :
    p.stream.leftover v = .ok v.remaining := by
  obtain ⟨hcur, hne⟩ := h.current_eq
  have hlt : finished % 2 < 2 := Nat.mod_lt _ (by decide)
  have hgo : ¬(p.stream.bound = false ∨ p.stream.pool.queued ≤ finished % 2) := by
    rw [h.bound, h.queued]
    exact not_or.mpr ⟨nofun, Nat.not_le.mpr hlt⟩
  have hbytes : (v.table.read v.current).elementBytes = 1 :=
    congrArg Block.elementBytes h.block_current
  rw [Stream.leftover, h.sound.standing_eq h.bound, if_neg hgo, ← hcur, Scene.nextLink, if_neg hne,
    if_neg (fun hn => hn rfl), hbytes, Nat.mul_one]

/-! ## What keeps a pump receiving -/

/-- What leaves memory, the descriptors and the controller alone, and the position. -/
theorem Receiving.congr (h : p.Receiving v received finished handled consumed) {v' : Scene}
    {state : StreamState} {queue : ByteQueue} (hq : queue.Valid) (hmemory : v'.memory = v.memory)
    (htable : v'.table = v.table) (hcurrent : v'.current = v.current)
    (hremaining : v'.remaining = v.remaining) :
    Receiving { p with stream := { p.stream with state }, queue } v' received finished handled
      consumed := by
  have hs : Stream.Sound { p.stream with state } v' (finished % 2) :=
    h.sound.congr rfl rfl h.sound.template rfl rfl hcurrent (by rw [htable])
      fun a => by rw [htable]
  have hfit := (h.fit.change hs ⟨rfl, rfl, rfl, rfl, rfl⟩ (by rw [hmemory]) hq p.position).fit
  refine ⟨hfit, hs, h.bound, h.queued, ?_, ?_, ?_, ?_, ?_, ?_, h.lag, h.consumed_ge, h.consumed_le,
    h.consumed_received, h.position⟩
  · rw [htable]
    exact h.blocks
  · rw [htable]
    exact h.armed
  · rw [hremaining]
    exact h.remaining_le
  · rw [hremaining]
    exact h.count
  · rw [hmemory, hremaining]
    exact h.filling
  · rw [hmemory]
    exact h.waiting

/-- The register, and all other memory outside the staging area, can change at any time. -/
theorem Receiving.outside (h : p.Receiving v received finished handled consumed) {m : Memory}
    (hsize : m.bytes.size = v.memory.bytes.size)
    (hout : ∀ a, p.staging ≤ a → a < p.staging + 2 * p.half → m.read a = v.memory.read a) :
    p.Receiving { v with memory := m } received finished handled consumed := by
  have hs : p.stream.Sound { v with memory := m } (finished % 2) :=
    h.sound.congr rfl rfl h.sound.template rfl rfl rfl rfl fun _ => rfl
  have hread (n length : Nat) (hle : length ≤ p.half) :
      m.readList (p.halfAddress n) length = v.memory.readList (p.halfAddress n) length := by
    apply Memory.readList_congr
    intro i hi
    have hbounds := p.halfAddress_bounds n
    exact hout _ (by omega) (by omega)
  refine ⟨(h.fit.change hs (.refl _) hsize h.fit.queue p.position).fit, hs, h.bound, h.queued,
    h.blocks, h.armed, h.remaining_le, h.count, ?_, ?_, h.lag, h.consumed_ge, h.consumed_le,
    h.consumed_received, h.position⟩
  · exact (hread finished _ (Nat.sub_le ..)).trans h.filling
  · intro hlag
    exact (hread handled _ (Nat.le_refl _)).trans (h.waiting hlag)

/-! ## Receiving -/

/-- What the controller writes next goes behind what it wrote to the half, and is what the register
holds. -/
theorem Receiving.writes_eq (h : p.Receiving v received finished handled consumed) (count : Nat) :
    v.writes count =
      Memory.placed (p.halfAddress finished + (p.half - v.remaining))
        (List.replicate (min count v.remaining) (v.memory.read p.source)) := by
  obtain ⟨-, hne⟩ := h.current_eq
  obtain ⟨d, hd⟩ : ∃ d, v.table.read v.current = d := ⟨_, rfl⟩
  have hblock : d.block = p.halfBlock finished := hd ▸ h.block_current
  have hsource : d.source = p.source := congrArg Block.source hblock
  have hdestination : d.destination = p.halfAddress finished := congrArg Block.destination hblock
  have helements : d.elements = p.half := congrArg Block.elements hblock
  have hbounds := p.halfAddress_bounds finished
  have hapart := h.fit.apart
  have hle := h.remaining_le
  have hout : ∀ i, p.half - v.remaining ≤ i →
      i < p.half - v.remaining + min count v.remaining → d.destination + i ≠ d.source := by
    intro i _ hi
    rw [hsource, hdestination]
    omega
  rw [Scene.writes, if_neg hne, hd]
  show v.memory.elementWrites d (d.elements - v.remaining) _ = _
  rw [helements, v.memory.elementWrites_fromRegister (congrArg Block.elementBytes hblock)
    (congrArg Block.sourceFixed hblock) (congrArg Block.destinationFixed hblock) hout, hsource,
    hdestination]

/-- The bytes that the controller receives when it moves so many elements. -/
theorem Receiving.arriving_eq (h : p.Receiving v received finished handled consumed) (count : Nat) :
    (v.writes count).map Prod.snd =
      List.replicate (min count v.remaining) (v.memory.read p.source) := by
  rw [h.writes_eq, Memory.map_snd_placed]

theorem Receiving.arriving_le (h : p.Receiving v received finished handled consumed) (count : Nat) :
    ((v.writes count).map Prod.snd).length ≤ v.remaining := by
  rw [h.arriving_eq, List.length_replicate]
  exact Nat.min_le_right ..

/-- They go to the half being filled, behind those that it has. -/
theorem Receiving.memory_moveElements (h : p.Receiving v received finished handled consumed)
    (count : Nat) :
    (v.moveElements count).memory =
      v.memory.writeList (p.halfAddress finished + (p.half - v.remaining))
        ((v.writes count).map Prod.snd) := by
  rw [v.memory_moveElements, h.writes_eq, Memory.map_snd_placed, Memory.writeList_eq]

theorem Receiving.remaining_moveElements (h : p.Receiving v received finished handled consumed)
    (count : Nat) :
    (v.moveElements count).remaining = v.remaining - ((v.writes count).map Prod.snd).length := by
  obtain ⟨-, hne⟩ := h.current_eq
  rw [h.arriving_eq, List.length_replicate, Scene.moveElements, if_neg hne]

/-- The half being filled holds the last bytes received, and those that arrive. -/
theorem Receiving.filling_moveElements (h : p.Receiving v received finished handled consumed)
    (count : Nat) :
    (v.moveElements count).memory.readList (p.halfAddress finished)
        (p.half - (v.moveElements count).remaining) =
      (received ++ (v.writes count).map Prod.snd).drop (finished * p.half) := by
  have hmemory := h.memory_moveElements count
  have hremaining := h.remaining_moveElements count
  have hlen := h.arriving_le count
  generalize (v.writes count).map Prod.snd = bytes at hmemory hremaining hlen ⊢
  have hle := h.remaining_le
  have hbounds := p.halfAddress_bounds finished
  have hstaging := h.fit.staging
  have hfits : p.halfAddress finished + (p.half - v.remaining) + bytes.length ≤
      v.memory.bytes.size := by omega
  have hdone : p.half - (v.remaining - bytes.length) = p.half - v.remaining + bytes.length := by
    omega
  have hlength : finished * p.half ≤ received.length := by
    have hcount := h.count
    rw [Nat.succ_mul] at hcount
    omega
  rw [hmemory, hremaining, hdone, v.memory.readList_writeList_behind hfits, h.filling,
    List.drop_append_of_le_length hlength]

/-- The half that waits for its completion to be handled is not the one being filled. -/
theorem Receiving.waiting_moveElements (h : p.Receiving v received finished handled consumed)
    (count : Nat) (hlag : finished = handled + 1) :
    (v.moveElements count).memory.readList (p.halfAddress handled) p.half =
      ((received ++ (v.writes count).map Prod.snd).drop (handled * p.half)).take p.half := by
  have hmemory := h.memory_moveElements count
  have hlen := h.arriving_le count
  generalize (v.writes count).map Prod.snd = bytes at hmemory hlen ⊢
  have hle := h.remaining_le
  have hlength : handled * p.half + p.half ≤ received.length := by
    have hcount := h.count
    rw [hlag, Nat.succ_mul, Nat.succ_mul] at hcount
    omega
  have hapart : p.halfAddress handled + p.half ≤ p.halfAddress finished + (p.half - v.remaining) ∨
      p.halfAddress finished + (p.half - v.remaining) + bytes.length ≤ p.halfAddress handled := by
    have hhalves := p.halfAddress_succ handled
    rw [← hlag] at hhalves
    omega
  rw [hmemory, v.memory.readList_writeList_of_apart hapart, h.waiting hlag,
    List.drop_append_of_le_length (by omega), List.take_append_of_le_length]
  rw [List.length_drop]
  omega

/-- Received bytes go to the half that is being filled. -/
theorem Receiving.moveElements (h : p.Receiving v received finished handled consumed)
    (count : Nat) :
    p.Receiving (v.moveElements count) (received ++ (v.writes count).map Prod.snd) finished handled
      consumed := by
  have hremaining := h.remaining_moveElements count
  have hlen := h.arriving_le count
  have hle := h.remaining_le
  have hcount := h.count
  have hsize : (v.moveElements count).memory.bytes.size = v.memory.bytes.size := by
    rw [h.memory_moveElements, Memory.size_writeList]
  have hs := h.sound.moveElements count
  refine ⟨(h.fit.change hs (.refl _) hsize h.fit.queue p.position).fit, hs, h.bound, h.queued,
    ?_, ?_, ?_, ?_, h.filling_moveElements count, h.waiting_moveElements count, h.lag,
    h.consumed_ge, h.consumed_le, ?_, h.position⟩
  · rw [Scene.table_moveElements]
    exact h.blocks
  · rw [Scene.table_moveElements]
    exact h.armed
  · rw [hremaining]
    omega
  · rw [hremaining, List.length_append]
    omega
  · rw [List.length_append]
    exact Nat.le_trans h.consumed_received (Nat.le_add_right ..)

/-- Every half raises an event, since the chain is a loop of armed blocks. -/
theorem Receiving.finishEvent_eq (h : p.Receiving v received finished handled consumed)
    (hnext : v.nextLink ≠ 0) : v.finishEvent = some .progress := by
  obtain ⟨hcur, hne⟩ := h.current_eq
  have hirq : (v.table.read v.current).interrupts = true := by
    rw [hcur]
    exact h.armed _ (Nat.mod_lt _ (by decide))
  have hraises : ¬(v.current = 0 ∨ (v.table.read v.current).interrupts = false) := by
    rw [hirq]
    exact not_or.mpr ⟨hne, nofun⟩
  rw [Scene.finishEvent, if_neg hraises, if_neg hnext]

/-- From the end of a half the controller goes on to the other, and finds all of it to fill. -/
theorem Receiving.goesOn (h : p.Receiving v received finished handled consumed) :
    v.nextLink ≠ 0 ∧ p.stream.Sound v.finish ((finished + 1) % 2) ∧
      v.finish.remaining = p.half := by
  obtain ⟨-, hne⟩ := h.current_eq
  have hfollow : p.stream.follow (finished % 2) = (finished + 1) % 2 := by
    rw [Stream.follow, h.queued]
    rcases Nat.mod_two_eq_zero_or_one finished with hm | hm
    · rw [hm, if_neg (fun hn => absurd hn.2 (by decide))]
      omega
    · rw [hm, if_pos ⟨h.circular, rfl⟩]
      omega
  have hs := h.sound.finish
  rw [if_neg hne, hfollow] at hs
  have he := hs.engaged h.bound
  have hne' := he.circular h.circular
  have hcur' := (he.stands.executing hne').2
  have hfinish := Scene.finish_running hne
  have hnext : v.nextLink ≠ 0 := by
    rw [hfinish] at hne'
    exact hne'
  have hload : v.finish.remaining = (v.table.read v.finish.current).elements := by
    rw [hfinish]
    show (if v.nextLink = 0 then 0 else ((v.moveElements _).table.read v.nextLink).elements) = _
    rw [if_neg hnext, Scene.table_moveElements]
    rfl
  refine ⟨hnext, hs, ?_⟩
  rw [hload, hcur']
  exact congrArg Block.elements (h.blocks _ (Nat.mod_lt _ (by decide)))

/-- At the end of a half the controller goes on to the other, and raises an event. -/
theorem Receiving.finish (h : p.Receiving v received finished finished consumed) :
    v.finishEvent = some .progress ∧
      p.Receiving v.finish (received ++ (v.writes v.remaining).map Prod.snd) (finished + 1) finished
        consumed := by
  obtain ⟨-, hne⟩ := h.current_eq
  obtain ⟨hnext, hs, hremaining⟩ := h.goesOn
  -- the controller has moved all that the half lacked
  have hmoved := h.moveElements v.remaining
  have hleft : (v.moveElements v.remaining).remaining = 0 := by
    rw [Scene.moveElements, if_neg hne, Nat.min_self]
    exact Nat.sub_self v.remaining
  have hcount := hmoved.count
  rw [hleft, Nat.add_zero] at hcount
  have hfilled := hmoved.filling
  rw [hleft, Nat.sub_zero] at hfilled
  have hmemory : v.finish.memory = (v.moveElements v.remaining).memory := by
    rw [Scene.finish_running hne]
    rfl
  have hsize : v.finish.memory.bytes.size = v.memory.bytes.size := by
    rw [v.memory_finish, Memory.size_writeEach]
  refine ⟨h.finishEvent_eq hnext, (h.fit.change hs (.refl _) hsize h.fit.queue p.position).fit, hs,
    h.bound, h.queued, ?_, ?_, Nat.le_of_eq hremaining, ?_, ?_, ?_, .inr rfl, h.consumed_ge,
    h.consumed_le, hmoved.consumed_received, h.position⟩
  · rw [Scene.table_finish]
    exact h.blocks
  · rw [Scene.table_finish]
    exact h.armed
  · rw [hremaining, hcount, Nat.succ_mul (finished + 1)]
  · rw [hremaining, Nat.sub_self, List.drop_eq_nil_of_le (Nat.le_of_eq hcount)]
    rfl
  · intro _
    rw [hmemory, hfilled]
    refine (List.take_of_length_le ?_).symm
    rw [List.length_drop, hcount, Nat.succ_mul]
    omega

/-! ## Consuming -/

/-- The staged bytes up to the end of a half that was filled are the next bytes to be consumed. -/
theorem Receiving.staged_waiting (h : p.Receiving v received (handled + 1) handled consumed) :
    p.staged v.memory ((handled % 2 + 1) * p.half) =
      (received.drop consumed).take ((handled + 1) * p.half - consumed) := by
  obtain ⟨x, rfl⟩ := Nat.exists_eq_add_of_le h.consumed_ge
  have hle := h.consumed_le
  have hposition := h.position
  rw [Nat.add_sub_cancel_left] at hposition
  rw [Nat.succ_mul] at hle ⊢
  rw [staged, hposition, Nat.succ_mul, ← Nat.add_assoc]
  show v.memory.readList (p.halfAddress handled + x) _ = _
  have hlength : handled % 2 * p.half + p.half - (handled % 2 * p.half + x) = p.half - x := by omega
  have hleft : handled * p.half + p.half - (handled * p.half + x) = p.half - x := by omega
  rw [hlength, hleft, ← Memory.drop_readList _ _ (by omega), h.waiting rfl, List.drop_take,
    List.drop_drop]

/-- The staged bytes of the half being filled are all that are still to be consumed. -/
theorem Receiving.staged_filling (h : p.Receiving v received finished finished consumed) :
    p.staged v.memory ((finished % 2 + 1) * p.half - min v.remaining p.half) =
      received.drop consumed := by
  obtain ⟨x, rfl⟩ := Nat.exists_eq_add_of_le h.consumed_ge
  have hcount := h.count
  have hle := h.remaining_le
  have hreceived := h.consumed_received
  have hposition := h.position
  rw [Nat.add_sub_cancel_left] at hposition
  rw [Nat.succ_mul] at hcount
  rw [staged, hposition, Nat.succ_mul, ← Nat.add_assoc, Nat.min_eq_left hle]
  show v.memory.readList (p.halfAddress finished + x) _ = _
  have hlength : finished % 2 * p.half + p.half - v.remaining - (finished % 2 * p.half + x) =
      p.half - v.remaining - x := by omega
  rw [hlength, ← Memory.drop_readList _ _ (by omega), h.filling, List.drop_drop]

/-- The pump consumes up to the end of the half whose completion it handles. -/
theorem Receiving.filledPlace_eq (h : p.Receiving v received (handled + 1) handled consumed) :
    p.filledPlace v = (handled % 2 + 1) * p.half := by
  rw [filledPlace, h.fillingHalf_eq]
  rcases Nat.mod_two_eq_zero_or_one handled with hm | hm
  · rw [hm, if_pos (by omega), Nat.zero_add, Nat.one_mul]
  · rw [hm, if_neg (by omega)]

/-- The end of a half is the start of the other. -/
theorem Fit.filledPlace_mod (h : p.Fit v) (n : Nat) :
    (n % 2 + 1) * p.half % (2 * p.half) = (n + 1) % 2 * p.half := by
  have hpos := h.half_pos
  rcases Nat.mod_two_eq_zero_or_one n with hm | hm
  · have hm' : (n + 1) % 2 = 1 := by omega
    rw [hm, hm', Nat.zero_add, Nat.one_mul]
    exact Nat.mod_eq_of_lt (by omega)
  · have hm' : (n + 1) % 2 = 0 := by omega
    rw [hm, hm', Nat.zero_mul]
    exact Nat.mod_self _

/-- **A completion consumes the rest of the half that was filled.** -/
theorem Receiving.exec_onInterrupt (h : p.Receiving v received (handled + 1) handled consumed) :
    ∃ count,
      (v.exec (p.onInterrupt .progress)).1.2.Receiving (v.exec (p.onInterrupt .progress)).2 received
        (handled + 1) (handled + 1) ((handled + 1) * p.half) ∧
      p.queue.Pushed ((received.drop consumed).take ((handled + 1) * p.half - consumed)) count
        (v.exec (p.onInterrupt .progress)).1.2.queue := by
  have hexec : v.exec (p.stream.onInterrupt .progress) =
      ((some .busy, { p.stream with state := .busy }), v) := by
    rw [Stream.exec_onInterrupt, if_pos h.bound, Stream.exec_react_progress, Stream.retired,
      if_pos h.circular]
    rfl
  have hplace : filledPlace { p with stream := { p.stream with state := .busy } } v =
      (handled % 2 + 1) * p.half := h.filledPlace_eq
  obtain ⟨queue, hresult, hpushed⟩ := exec_onInterrupt_progress h.fit.queue hexec
  rw [hplace, h.staged_waiting] at hpushed
  rw [hplace, h.fit.filledPlace_mod] at hresult
  rw [hresult]
  refine ⟨_, ?_, hpushed⟩
  have hs : Stream.Sound { p.stream with state := .busy } v ((handled + 1) % 2) :=
    h.sound.congr rfl rfl h.sound.template rfl rfl rfl rfl fun _ => rfl
  have hcount := h.count
  have hle := h.remaining_le
  refine ⟨(h.fit.change hs ⟨rfl, rfl, rfl, rfl, rfl⟩ rfl hpushed.valid _).fit, hs, h.bound,
    h.queued, h.blocks, h.armed, h.remaining_le, h.count, h.filling,
    fun hlate => absurd hlate (Nat.ne_of_lt (Nat.lt_succ_self _)), .inl rfl, Nat.le_refl _, ?_, ?_,
    ?_⟩
  · exact Nat.mul_le_mul_right _ (Nat.le_succ _)
  · show (handled + 1) * p.half ≤ received.length
    rw [Nat.succ_mul (handled + 1)] at hcount
    omega
  · show _ = (handled + 1) % 2 * p.half + ((handled + 1) * p.half - (handled + 1) * p.half)
    rw [Nat.sub_self]
    rfl

/-- A timeout is noted, and the transfer goes on. -/
theorem Fit.exec_timeout (h : p.Fit v) (hb : p.stream.bound = true) :
    ∃ left, v.exec (p.onInterrupt .timeout) =
      ((some .timeout, { p with stream := { p.stream with state := .timeout } }),
        { v with pendingPolls := left }) := by
  obtain ⟨left, hleft⟩ := p.stream.exec_react_timeout v
  have hpolicy : ¬p.stream.config.timeoutPolicy = .abort := by
    rw [h.config]
    exact nofun
  rw [if_neg hpolicy] at hleft
  have hexec : v.exec (p.stream.onInterrupt .timeout) =
      ((some .timeout, { p.stream with state := .timeout }), { v with pendingPolls := left }) := by
    rw [Stream.exec_onInterrupt, if_pos hb, hleft]
    rfl
  exact ⟨left, exec_onInterrupt_other hexec (.inr nofun)⟩

/-- A timeout changes nothing that matters. -/
theorem Receiving.exec_timeout (h : p.Receiving v received finished handled consumed) :
    (v.exec (p.onInterrupt .timeout)).1.2.Receiving (v.exec (p.onInterrupt .timeout)).2 received
        finished handled consumed ∧
      (v.exec (p.onInterrupt .timeout)).1.2.queue = p.queue := by
  obtain ⟨left, hexec⟩ := h.fit.exec_timeout h.bound
  rw [hexec]
  exact ⟨h.congr h.fit.queue rfl rfl rfl rfl, rfl⟩

/-- A half that was consumed to its end has nothing more for an idle line, until the controller goes
on. -/
theorem Receiving.exec_onIdle_end (h : p.Receiving v received finished finished consumed)
    (hend : consumed = finished * p.half + p.half) :
    ∃ result, v.exec p.onIdle = ((result, p), v) := by
  have hquot : p.position / p.half = finished % 2 + 1 := by
    have hsum : p.position = (finished % 2 + 1) * p.half := by
      rw [h.position, hend, Nat.succ_mul]
      omega
    rw [hsum]
    exact Nat.mul_div_cancel _ h.fit.half_pos
  apply exec_onIdle_still h.bound
  intro residue _
  rw [hquot, h.fillingHalf_eq]
  exact Nat.succ_ne_self _

/-- Otherwise an idle line consumes all that was received. -/
theorem Receiving.exec_onIdle_all (h : p.Receiving v received finished finished consumed)
    (hend : consumed ≠ finished * p.half + p.half) :
    ∃ count, (v.exec p.onIdle).1.2.Receiving (v.exec p.onIdle).2 received finished finished
        received.length ∧
      p.queue.Pushed (received.drop consumed) count (v.exec p.onIdle).1.2.queue := by
  have hpos := h.fit.half_pos
  have hplace := h.position
  have hge := h.consumed_ge
  have hle := h.consumed_le
  have hreceived := h.consumed_received
  have hcount := h.count
  have hrest := h.remaining_le
  rw [Nat.succ_mul] at hle hcount
  have hquot : p.position / p.half = p.fillingHalf v := by
    rw [h.fillingHalf_eq, hplace, Nat.mul_comm, Nat.mul_add_div hpos, Nat.div_eq_of_lt (by omega),
      Nat.add_zero]
  have hupTo : (p.fillingHalf v + 1) * p.half - min v.remaining p.half =
      finished % 2 * p.half + (p.half - v.remaining) := by
    rw [h.fillingHalf_eq, Nat.min_eq_left hrest, Nat.succ_mul]
    omega
  have hstaged := h.staged_filling
  rw [← h.fillingHalf_eq] at hstaged
  obtain ⟨n, queue, hresult, hpushed⟩ :=
    exec_onIdle_moves h.fit.queue h.bound h.leftover_eq hquot rfl
  rw [hstaged] at hpushed
  rw [hupTo] at hresult
  rw [hresult]
  refine ⟨_, ?_, hpushed⟩
  refine ⟨(h.fit.change h.sound (.refl _) rfl hpushed.valid _).fit, h.sound, h.bound, h.queued,
    h.blocks, h.armed, hrest, h.count, h.filling,
    fun hlate => absurd hlate (Nat.ne_of_lt (Nat.lt_succ_self _)), .inl rfl, ?_, ?_, Nat.le_refl _,
    ?_⟩
  · show finished * p.half ≤ received.length
    omega
  · show received.length ≤ (finished + 1) * p.half
    rw [Nat.succ_mul]
    omega
  · show max p.position (finished % 2 * p.half + (p.half - v.remaining)) =
      finished % 2 * p.half + (received.length - finished * p.half)
    omega

/-- **An idle line consumes all that was received**, unless the half being filled was consumed to
its end already. -/
theorem Receiving.exec_onIdle (h : p.Receiving v received finished finished consumed) :
    ∃ count consumed', consumed ≤ consumed' ∧
      (v.exec p.onIdle).1.2.Receiving (v.exec p.onIdle).2 received finished finished consumed' ∧
      p.queue.Pushed ((received.drop consumed).take (consumed' - consumed)) count
        (v.exec p.onIdle).1.2.queue := by
  by_cases hend : consumed = finished * p.half + p.half
  · obtain ⟨result, hresult⟩ := h.exec_onIdle_end hend
    rw [hresult]
    refine ⟨0, consumed, Nat.le_refl _, h, ?_⟩
    rw [Nat.sub_self, List.take_zero]
    exact h.fit.queue.pushed_nil
  · obtain ⟨count, hreceiving, hpushed⟩ := h.exec_onIdle_all hend
    refine ⟨count, received.length, h.consumed_received, hreceiving, ?_⟩
    rwa [List.take_of_length_le (Nat.le_of_eq List.length_drop)]

/-! ## Starting -/

theorem halfAddress_zero (p : ReceivePump) : p.staging = p.halfAddress 0 := by
  rw [halfAddress, Nat.zero_mod, Nat.zero_mul, Nat.add_zero]

theorem halfAddress_one (p : ReceivePump) : p.staging + p.half = p.halfAddress 1 := by
  rw [halfAddress, Nat.one_mod, Nat.one_mul]

/-- The block that is asked for is the block of the half. -/
theorem Fit.block_eq (h : p.Fit v) {s : Stream} (hkept : p.stream.Kept s) {address n : Nat}
    (haddress : address = p.halfAddress n) :
    s.config.settings.block address p.source (p.half / s.config.settings.width.bytes) =
      p.halfBlock n := by
  rw [hkept.config.trans h.config, haddress, halfBlock]
  show TransferSettings.block _ _ _ (p.half / 1) = _
  rw [Nat.div_one]
  rfl

/-- Every block of the loop raises an event, since the loop has a callback. -/
theorem Fit.wants (h : p.Fit v) {s : Stream} (hkept : p.stream.Kept s) (last : Bool) :
    s.wantsInterrupt last = true := by
  rw [Stream.wantsInterrupt, hkept.config.trans h.config, hkept.callback.trans h.callback]
  rfl

/-- A stream that holds the blocks of both halves is set to the first. -/
theorem Fit.receiving (h : p.Fit v) {s : Stream} {v' : Scene} (hkept : p.stream.Kept s)
    (hsize : v'.memory.bytes.size = v.memory.bytes.size)
    (hholds : s.Holds v' [p.halfBlock 0, p.halfBlock 1])
    (hok : (v'.exec s.enable).1.1 = .ok ()) :
    Receiving { p with stream := (v'.exec s.enable).1.2, position := 0 } (v'.exec s.enable).2 [] 0 0
      0 := by
  obtain ⟨⟨ownership, hexec⟩, hblocks⟩ := hholds.enable hok
  have hs := hholds.sound.exec_enable
  rw [hexec] at hs ⊢
  -- linking and arming leave both blocks as they were queued
  obtain ⟨hqueued, hfirst, hsecond⟩ := Pool.blocksFrom_pair hblocks
  have hboth : ∀ n < 2, ((s.startedTable v'.table).read (s.pool.addressAt n)).block =
      p.halfBlock n := by
    intro n hn
    match n, hn with
    | 0, _ => exact hfirst
    | 1, _ => exact hsecond
  have hne := hholds.sound.sits.addressAt_ne_zero 0
  have hremaining : (Scene.start { v' with ownership, table := s.startedTable v'.table }
      (s.pool.addressAt 0)).remaining = p.half :=
    (if_neg hne).trans (congrArg Block.elements (hboth 0 (by decide)))
  have hkept' : p.stream.Kept { s with bound := true, stalled := none, state := .busy } :=
    ⟨hkept.channel, hkept.owner, hkept.config, hkept.callback, hkept.capacity⟩
  refine ⟨(h.change hs hkept' hsize h.queue 0).fit, hs, rfl, hqueued, hboth, ?_, ?_, ?_, ?_, nofun,
    .inl rfl, ?_, Nat.zero_le _, Nat.zero_le _, ?_⟩
  · intro n hn
    exact Stream.interrupts_startedTable hholds.sound.sits (hqueued ▸ hn) (h.wants hkept _)
  · exact Nat.le_of_eq hremaining
  · show 0 + _ = (0 + 1) * p.half
    rw [Nat.zero_add, Nat.zero_add, Nat.one_mul]
    exact hremaining
  · rw [hremaining]
    show Memory.readList _ _ (p.half - p.half) = _
    rw [Nat.sub_self, List.drop_nil]
    rfl
  · exact Nat.le_of_eq (Nat.zero_mul p.half)
  · show 0 = 0 % 2 * p.half + (0 - 0 * p.half)
    rw [Nat.zero_sub, Nat.zero_mod, Nat.zero_mul]

/-- The chain of a pump that is about to start: it holds these blocks, and nothing else has changed
since the start was asked for. -/
structure Filling (p : ReceivePump) (v : Scene) (s : Stream) (v' : Scene) (blocks : List Block) :
    Prop where
  kept : p.stream.Kept s
  size : v'.memory.bytes.size = v.memory.bytes.size
  holds : s.Holds v' blocks

/-- A half is added to the chain. If it does not fit the pump stays fit. -/
theorem Filling.append (h : p.Fit v) {s : Stream} {v' : Scene} {blocks : List Block}
    (hf : p.Filling v s v' blocks) {address n : Nat} (haddress : address = p.halfAddress n) :
    p.Stays { p with stream := (v'.exec (s.append address p.source p.half)).1.2, position := 0 }
        (v'.exec (s.append address p.source p.half)).2 ∧
      ((v'.exec (s.append address p.source p.half)).1.1 = .ok () →
        p.Filling v (v'.exec (s.append address p.source p.half)).1.2
          (v'.exec (s.append address p.source p.half)).2 (blocks ++ [p.halfBlock n])) := by
  have hkept := hf.kept.trans (s.kept_append v' address p.source p.half)
  have hsize := (v'.size_exec (s.append address p.source p.half)).trans hf.size
  have hsound := hf.holds.sound.exec_append address p.source p.half
  refine ⟨h.change hsound hkept hsize h.queue 0, ?_⟩
  intro hok
  have hholds := hf.holds.append address p.source p.half hok
  rw [h.block_eq hf.kept haddress] at hholds
  exact ⟨hkept, hsize, hholds⟩

/-- **A start that succeeds begins to receive**; in any case the pump stays fit, and its queue is
left alone. -/
theorem Fit.exec_start (h : p.Fit v) :
    p.Stays (v.exec p.start).1.2 (v.exec p.start).2 ∧
      (v.exec p.start).1.2.queue = p.queue ∧
      ((v.exec p.start).1.1 = .ok () →
        (v.exec p.start).1.2.Receiving (v.exec p.start).2 [] 0 0 0) := by
  obtain ⟨k, hk⟩ := h.sound
  obtain ⟨outcome, hout⟩ : ∃ outcome, v.exec p.start = outcome := ⟨_, rfl⟩
  rw [hout]
  unfold start at hout
  -- the chain is forgotten
  have hempty : p.Filling v (v.exec p.stream.clear).1 (v.exec p.stream.clear).2 [] :=
    ⟨p.stream.kept_clear v, v.size_exec p.stream.clear, hk.holds_clear⟩
  rw [Scene.exec_bind] at hout
  rcases hclear : v.exec p.stream.clear with ⟨s₁, v₁⟩
  rw [hclear] at hempty hout
  -- the first half is queued
  obtain ⟨hstays₁, hfilling₁⟩ := hempty.append h p.halfAddress_zero
  replace hout : v₁.exec (s₁.append p.staging p.source p.half >>= _) = outcome := hout
  rw [Scene.exec_bind] at hout
  rcases hfirst : v₁.exec (s₁.append p.staging p.source p.half) with ⟨⟨first, s₂⟩, v₂⟩
  rw [hfirst] at hstays₁ hfilling₁ hout
  cases first with
  | error e =>
    subst hout
    exact ⟨hstays₁, rfl, nofun⟩
  | ok u =>
    -- and the second
    obtain ⟨hstays₂, hfilling₂⟩ := (hfilling₁ rfl).append h p.halfAddress_one
    replace hout : v₂.exec (s₂.append (p.staging + p.half) p.source p.half >>= _) = outcome := hout
    rw [Scene.exec_bind] at hout
    rcases hsecond : v₂.exec (s₂.append (p.staging + p.half) p.source p.half) with
      ⟨⟨second, s₃⟩, v₃⟩
    rw [hsecond] at hstays₂ hfilling₂ hout
    cases second with
    | error e =>
      subst hout
      exact ⟨hstays₂, rfl, nofun⟩
    | ok u =>
      obtain ⟨hkept, hsize, hholds⟩ := hfilling₂ rfl
      replace hout : v₃.exec (s₃.enable >>= _) = outcome := hout
      rw [Scene.exec_bind] at hout
      subst hout
      refine ⟨h.change hholds.sound.exec_enable (hkept.trans (s₃.kept_enable v₃))
        ((v₃.size_exec s₃.enable).trans hsize) h.queue 0, rfl, ?_⟩
      intro hok
      exact h.receiving hkept hsize hholds hok

end ReceivePump

end ScatterGather

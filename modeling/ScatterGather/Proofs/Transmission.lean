import ScatterGather.Proofs.Backlog
import ScatterGather.Proofs.Contents

/-!
# ScatterGather.Proofs.Transmission — what a transmit pump sends

A transmit pump hands the controller one block at a time, over the longest run at the front of its
queue. `Working` says what holds of it between its operations. When its stream holds the channel a
transfer is under way (`Flight`): the one descriptor covers the first `inFlight` bytes of the queue,
and `moved`, all that the controller wrote since it was last started, are the first of these bytes,
each to the register. When the stream does not hold the channel nothing is in flight.

The block lies in the cells of the queue, and what is queued behind it goes to other cells
(`Working.filled`), so a write never touches what is being sent. The controller writes to the
register only (`Working.writes_eq`), so it never touches the queue.
-/

namespace ScatterGather

namespace Pool

/-- A pool of one descriptor has one address. -/
theorem addressAt_single {p : Pool} (h : p.capacity = 1) (offset : Nat) :
    p.addressAt offset = p.addressOf 0 := by
  rw [addressAt, slotAt, h, Nat.mod_one]

end Pool

namespace Stream

/-- A block that a stream over one descriptor takes is the only one. -/
theorem Sound.append_single {s : Stream} {v : Scene} {k : Nat} (h : s.Sound v k)
    (hcap : s.pool.capacity = 1) (hb : s.bound = false) (destination source size : Nat)
    (hok : (v.exec (s.append destination source size)).1.1 = .ok ()) :
    (v.exec (s.append destination source size)).1.2.pool =
        { s.discardFinished.pool with queued := 1 } ∧
      ((v.exec (s.append destination source size)).2.table.read
        (s.discardFinished.pool.addressAt 0)).block =
        s.config.settings.block destination source (size / s.config.settings.width.bytes) := by
  obtain ⟨table, hexec, hroom, hblocks⟩ := h.append_ok hb destination source size hok
  have hq : s.discardFinished.pool.queued = 0 := by omega
  rw [Pool.blocksFrom_of_empty hq, hq] at hblocks
  rw [hexec, hq]
  exact ⟨rfl, (List.cons.inj hblocks).1⟩

end Stream

namespace TransmitPump

variable {p : TransmitPump} {v : Scene} {moved : List (Nat × UInt8)}

/-- The bytes that wait in the queue or are being sent. -/
def contents (p : TransmitPump) (m : Memory) : List UInt8 :=
  p.ring.contents (m.cells p.storage)

/-- The block that covers the first bytes of the queue. -/
def run (p : TransmitPump) (length : Nat) : Block :=
  (TransferSettings.memoryToPeripheral .byte).block p.target (p.storage + p.ring.head) length

/-- What holds while a transfer is under way: its block covers the first bytes of the queue, and
what the controller wrote since its last start are as many of them as it has moved. -/
structure Flight (p : TransmitPump) (v : Scene) (moved : List (Nat × UInt8)) : Prop where
  pos : 0 < p.inFlight
  le_size : p.inFlight ≤ p.ring.size
  contiguous : p.ring.head + p.inFlight ≤ p.ring.capacity
  block : (v.table.read (p.stream.pool.addressOf 0)).block = p.run p.inFlight
  remaining_le : v.remaining ≤ p.inFlight
  stopped : v.current = 0 → v.remaining = 0
  moved : moved = ((p.contents v.memory).take (p.inFlight - v.remaining)).map (p.target, ·)

/-- What holds of a transmit pump between its operations. -/
structure Working (p : TransmitPump) (v : Scene) (moved : List (Nat × UInt8)) : Prop where
  ring : p.ring.Valid
  store : p.storage + p.ring.capacity ≤ v.memory.bytes.size
  apart : p.target < p.storage ∨ p.storage + p.ring.capacity ≤ p.target
  sound : ∃ k, p.stream.Sound v k
  single : p.stream.pool.capacity = 1
  config : p.stream.config = TransmitPump.config
  stalled : p.stream.stalled = none
  idle : p.stream.bound = false → p.inFlight = 0
  busy : p.stream.bound = true → p.Flight v moved

/-- A pump that is made is idle over an empty queue. -/
theorem Working.made (v : Scene) (channel : Channel) (owner : OwnerId) (ownership : Ownership)
    {capacity target : Nat} (hcap : 0 < capacity) (hc : v.current = 0)
    (hout : target < (v.memory.allocate capacity).1 ∨
      (v.memory.allocate capacity).1 + capacity ≤ target) :
    Working
      { stream := .idle channel owner (v.table.allocate 1).1 1 TransmitPump.config
        ring := { capacity }, storage := (v.memory.allocate capacity).1, target }
      { v with
        ownership, table := (v.table.allocate 1).2, memory := (v.memory.allocate capacity).2 }
      [] where
  ring := Ring.valid_empty hcap
  store := v.memory.allocate_le capacity
  apart := hout
  sound := by
    have hidle := Stream.Sound.idle v Nat.one_pos hc channel owner TransmitPump.config ownership
    exact ⟨0, hidle.congr rfl rfl rfl rfl rfl rfl rfl fun _ => rfl⟩
  single := rfl
  config := rfl
  stalled := rfl
  idle _ := rfl
  busy hb := nomatch hb

/-! ## What a transfer survives -/

/-- What leaves the controller, memory and the queue of the stream alone leaves the transfer. -/
theorem Working.still (h : p.Working v moved) {stream : Stream} {v' : Scene} {k : Nat}
    (hs : stream.Sound v' k) (hb : stream.bound = p.stream.bound)
    (hbase : stream.pool.base = p.stream.pool.base) (hcap : stream.pool.capacity = 1)
    (hconfig : stream.config = TransmitPump.config) (hst : stream.stalled = none)
    (hmemory : v'.memory = v.memory) (htable : v'.table = v.table)
    (hcurrent : v'.current = v.current) (hremaining : v'.remaining = v.remaining) :
    Working { p with stream } v' moved where
  ring := h.ring
  store := hmemory ▸ h.store
  apart := h.apart
  sound := ⟨k, hs⟩
  single := hcap
  config := hconfig
  stalled := hst
  idle hn := h.idle (hb.symm.trans hn)
  busy hn := by
    have hf := h.busy (hb.symm.trans hn)
    have haddress : stream.pool.addressOf 0 = p.stream.pool.addressOf 0 := by
      rw [Pool.addressOf, Pool.addressOf, hbase]
    refine ⟨hf.pos, hf.le_size, hf.contiguous, ?_, ?_, ?_, ?_⟩
    · show (v'.table.read (stream.pool.addressOf 0)).block = _
      rw [htable, haddress]
      exact hf.block
    · rw [hremaining]
      exact hf.remaining_le
    · rw [hcurrent, hremaining]
      exact hf.stopped
    · rw [hremaining, hmemory]
      exact hf.moved

theorem Working.congr (h : p.Working v moved) {v' : Scene} (hmemory : v'.memory = v.memory)
    (htable : v'.table = v.table) (hcurrent : v'.current = v.current)
    (hremaining : v'.remaining = v.remaining) : p.Working v' moved := by
  obtain ⟨k, hk⟩ := h.sound
  have hs : p.stream.Sound v' k :=
    hk.congr rfl rfl hk.template rfl rfl hcurrent (by rw [htable]) fun a => by rw [htable]
  exact h.still hs rfl rfl h.single h.config h.stalled hmemory htable hcurrent hremaining

theorem Working.withError (h : p.Working v moved) (error : Option Error) :
    Working { p with error } v moved where
  ring := h.ring
  store := h.store
  apart := h.apart
  sound := h.sound
  single := h.single
  config := h.config
  stalled := h.stalled
  idle := h.idle
  busy hb := by
    have hf := h.busy hb
    exact ⟨hf.pos, hf.le_size, hf.contiguous, hf.block, hf.remaining_le, hf.stopped, hf.moved⟩

/-! ## Starting a transfer -/

/-- A pump whose stream does not hold the channel is idle, whatever became of its transfer. -/
theorem Working.rest (h : p.Working v moved) (p' : TransmitPump) (v' : Scene)
    (hring : p'.ring.Valid) (hspace : p'.ring.capacity = p.ring.capacity)
    (hstorage : p'.storage = p.storage) (htarget : p'.target = p.target)
    (hs : p'.stream.Sound v' 0) (hb : p'.stream.bound = false)
    (hcap : p'.stream.pool.capacity = 1) (hconfig : p'.stream.config = TransmitPump.config)
    (hidle : p'.inFlight = 0) (hmemory : v'.memory = v.memory) (moved' : List (Nat × UInt8)) :
    p'.Working v' moved' where
  ring := hring
  store := by
    rw [hstorage, hspace, hmemory]
    exact h.store
  apart := by
    rw [htarget, hstorage, hspace]
    exact h.apart
  sound := ⟨0, hs⟩
  single := hcap
  config := hconfig
  stalled := (hs.resting hb).2.1
  idle _ := hidle
  busy hb' := by
    rw [hb'] at hb
    cases hb

/-- A transfer whose controller was just started has sent nothing. -/
theorem Working.flying (h : p.Working v moved) (p' : TransmitPump) (v' : Scene)
    (hring : p'.ring = p.ring) (hstorage : p'.storage = p.storage) (htarget : p'.target = p.target)
    (hs : p'.stream.Sound v' 0) (hb : p'.stream.bound = true) (hcap : p'.stream.pool.capacity = 1)
    (hconfig : p'.stream.config = TransmitPump.config) (hst : p'.stream.stalled = none)
    (hmemory : v'.memory = v.memory) (hpos : 0 < p'.inFlight) (hsize : p'.inFlight ≤ p.ring.size)
    (hcontiguous : p.ring.head + p'.inFlight ≤ p.ring.capacity)
    (hblock : (v'.table.read (p'.stream.pool.addressOf 0)).block = p.run p'.inFlight)
    (hrunning : v'.current ≠ 0) (hremaining : v'.remaining = p'.inFlight) : p'.Working v' [] where
  ring := hring ▸ h.ring
  store := by
    rw [hstorage, hring, hmemory]
    exact h.store
  apart := by
    rw [htarget, hstorage, hring]
    exact h.apart
  sound := ⟨0, hs⟩
  single := hcap
  config := hconfig
  stalled := hst
  idle hb' := by
    rw [hb] at hb'
    cases hb'
  busy _ :=
    { pos := hpos
      le_size := hring ▸ hsize
      contiguous := hring ▸ hcontiguous
      block := by
        rw [hblock, run, run, hstorage, hring, htarget]
      remaining_le := Nat.le_of_eq hremaining
      stopped := fun hc => absurd hc hrunning
      moved := by
        rw [hremaining, Nat.sub_self]
        rfl }

/-- What is left behind by an attempt to start a transfer: nothing of the ring and the memory has
changed, and a failed attempt leaves the pump idle. -/
structure Kicked (p : TransmitPump) (v : Scene) (moved : List (Nat × UInt8)) (p' : TransmitPump)
    (v' : Scene) : Prop where
  working : p'.Working v' (if v'.starts = v.starts then moved else [])
  channel : p'.stream.channel = p.stream.channel
  ring : p'.ring = p.ring
  storage : p'.storage = p.storage
  target : p'.target = p.target
  memory : v'.memory = v.memory
  fresh : p'.inFlight ≤ v'.remaining

/-- How many bytes the next transfer covers: the longest run at the front of the queue, as far as
one block can cover it. -/
def nextLength (p : TransmitPump) : Nat :=
  min (p.ring.popRun 0).length maxTransfer

theorem Working.nextLength_bounds (h : p.Working v moved) (hsize : 0 < p.ring.size) :
    0 < p.nextLength ∧ p.nextLength ≤ p.ring.size ∧
      p.ring.head + p.nextLength ≤ p.ring.capacity := by
  have hhead := h.ring.head_lt
  have hnext : p.nextLength = min (min p.ring.size (p.ring.capacity - p.ring.head)) 65536 := by
    rw [nextLength, h.ring.popRun_zero hsize]
    rfl
  omega

/-- What became of the stream of an idle pump that was asked to take a block. -/
structure Primed (p : TransmitPump) (stream : Stream) (v : Scene) : Prop where
  sound : stream.Sound v 0
  bound : stream.bound = false
  channel : stream.channel = p.stream.channel
  single : stream.pool.capacity = 1
  config : stream.config = TransmitPump.config

/-- The stream of an idle pump takes the block of a transfer, or it does not. -/
theorem Working.exec_prime (h : p.Working v moved) (hb : p.stream.bound = false) (length : Nat) :
    ∃ result stream table,
      v.exec (p.stream.append p.target (p.storage + p.ring.head) length) =
        ((result, stream), { v with table }) ∧
      p.Primed stream { v with table } ∧
      (result = .ok () → stream.pool.queued = 1 ∧
        (table.read (stream.pool.addressOf 0)).block = p.run length) := by
  obtain ⟨k, hk⟩ := h.sound
  have hs := hk.unbound hb
  obtain ⟨table, hscene⟩ := hs.append_scene p.target (p.storage + p.ring.head) length
  have hbound := hs.bound_append p.target (p.storage + p.ring.head) length
  have hkept := p.stream.kept_append v p.target (p.storage + p.ring.head) length
  have hsound := hs.exec_append p.target (p.storage + p.ring.head) length
  have hsingle := hs.append_single h.single hb p.target (p.storage + p.ring.head) length
  rcases hexec : v.exec (p.stream.append p.target (p.storage + p.ring.head) length) with
    ⟨⟨result, stream⟩, v₁⟩
  rw [hexec] at hscene hbound hkept hsound hsingle
  obtain rfl : v₁ = { v with table } := hscene
  have hcap : stream.pool.capacity = 1 := hkept.capacity.trans h.single
  refine ⟨result, stream, table, rfl,
    ⟨hsound, hbound.trans hb, hkept.channel, hcap, hkept.config.trans h.config⟩, ?_⟩
  intro hok
  obtain ⟨hpool, hblock⟩ := hsingle hok
  have hrow : p.stream.discardFinished.pool.addressAt 0 = stream.pool.addressOf 0 := by
    rw [← Pool.addressAt_single hcap 0, show stream.pool = _ from hpool]
    rfl
  have hqueued : stream.pool.queued = 1 := by
    rw [show stream.pool = _ from hpool]
  refine ⟨hqueued, ?_⟩
  rw [← hrow]
  apply hblock.trans
  rw [h.config]
  -- elements of one byte: the block is as long as the run
  show TransferSettings.block _ _ _ (length / 1) = _
  rw [Nat.div_one]
  rfl

/-- A start that fails leaves the pump idle. -/
theorem Working.unsent (h : p.Working v moved) (hb : p.stream.bound = false) {stream : Stream}
    {v' : Scene} (hp : p.Primed stream v') (hmemory : v'.memory = v.memory) :
    p.Kicked v moved { p with stream } v' where
  working :=
    h.rest { p with stream } v' h.ring rfl rfl rfl hp.sound hp.bound hp.single hp.config (h.idle hb)
      hmemory _
  channel := hp.channel
  ring := rfl
  storage := rfl
  target := rfl
  memory := hmemory
  fresh := Nat.le_trans (Nat.le_of_eq (h.idle hb)) (Nat.zero_le _)

/-- A start that succeeds puts the run in flight. -/
theorem Working.launched (h : p.Working v moved) (hsize : 0 < p.ring.size) {stream : Stream}
    {table : DescriptorTable} {ownership : Ownership} (hp : p.Primed stream { v with table })
    (hblock : (table.read (stream.pool.addressOf 0)).block = p.run p.nextLength)
    (hs : Stream.Sound { stream with bound := true, stalled := none, state := .busy }
      (Scene.start { v with ownership, table := stream.startedTable table }
        (stream.pool.addressAt 0)) 0) :
    p.Kicked v moved
      { p with
        stream := { stream with bound := true, stalled := none, state := .busy }
        inFlight := p.nextLength }
      (Scene.start { v with ownership, table := stream.startedTable table }
        (stream.pool.addressAt 0)) := by
  obtain ⟨hpos, hle, hcontiguous⟩ := h.nextLength_bounds hsize
  have hstarted : ((stream.startedTable table).read (stream.pool.addressOf 0)).block =
      p.run p.nextLength := by
    rw [Descriptor.block_congr (Stream.body_startedTable hp.sound.sits _)]
    exact hblock
  have hne := hp.sound.sits.addressAt_ne_zero 0
  have hremaining : (if stream.pool.addressAt 0 = 0 then 0
      else ((stream.startedTable table).read (stream.pool.addressAt 0)).elements) =
        p.nextLength := by
    rw [if_neg hne, Pool.addressAt_single hp.single]
    exact congrArg Block.elements hstarted
  refine ⟨?_, hp.channel, rfl, rfl, rfl, rfl, Nat.le_of_eq hremaining.symm⟩
  -- the controller was started once more, so its record begins anew
  show Working _ _ (if v.starts + 1 = v.starts then moved else [])
  rw [if_neg (Nat.succ_ne_self v.starts)]
  exact h.flying _ _ rfl rfl rfl hs rfl hp.single hp.config rfl rfl hpos hle hcontiguous hstarted
    hne hremaining

/-- A transfer whose block is refused does not start. -/
theorem exec_startRun_refused {e : DmaError} {stream : Stream} {v' : Scene}
    (happend : v.exec (p.stream.append p.target (p.storage + (p.ring.popRun 0).start)
      p.nextLength) = ((.error e, stream), v')) :
    v.exec p.startRun = ((.error (.dma e), { p with stream }), v') := by
  unfold startRun
  show v.exec (p.stream.append _ _ p.nextLength >>= _) = _
  rw [Scene.exec_bind, happend]
  rfl

/-- One whose block is queued starts with its stream. -/
theorem exec_startRun_queued {enabled : Except Error Unit} {stream stream' : Stream}
    {v' v'' : Scene}
    (happend : v.exec (p.stream.append p.target (p.storage + (p.ring.popRun 0).start)
      p.nextLength) = ((.ok (), stream), v'))
    (henable : v'.exec stream.enable = ((enabled, stream'), v'')) :
    v.exec p.startRun =
      ((enabled,
        { p with
          stream := stream'
          inFlight := if enabled.isOk then p.nextLength else p.inFlight }), v'') := by
  unfold startRun
  show v.exec (p.stream.append _ _ p.nextLength >>= _) = _
  rw [Scene.exec_bind, happend]
  show v'.exec (stream.enable >>= _) = _
  rw [Scene.exec_bind, henable]
  cases enabled <;> rfl

theorem Working.exec_startRun (h : p.Working v moved) (hb : p.stream.bound = false)
    (hsize : 0 < p.ring.size) :
    p.Kicked v moved (v.exec p.startRun).1.2 (v.exec p.startRun).2 := by
  obtain ⟨result, stream, table, hexec, hp, hok⟩ := h.exec_prime hb p.nextLength
  have hfront : (p.ring.popRun 0).start = p.ring.head := by rw [h.ring.popRun_zero hsize]
  rw [← hfront] at hexec
  cases result with
  | error e =>
    rw [exec_startRun_refused hexec]
    exact h.unsent hb hp rfl
  | ok u =>
    obtain ⟨hqueued, hblock⟩ := hok rfl
    have hq : stream.pool.queued ≠ 0 := by
      rw [hqueued]
      exact Nat.one_ne_zero
    have hs := hp.sound.exec_enable
    rcases Stream.enable_cases (v := { v with table }) hp.bound hq with
      ⟨e, ownership, henable⟩ | ⟨ownership, henable⟩
    · rw [henable] at hs
      rw [exec_startRun_queued hexec henable]
      exact h.unsent hb ⟨hs, hp.bound, hp.channel, hp.single, hp.config⟩ rfl
    · rw [henable] at hs
      rw [exec_startRun_queued hexec henable]
      exact h.launched hsize hp hblock hs

/-- **An attempt to start a transfer** either covers the longest run at the front of the queue, or
leaves the pump idle. -/
theorem Working.exec_kick (h : p.Working v moved) (hb : p.stream.bound = false)
    (hsize : 0 < p.ring.size) : p.Kicked v moved (v.exec p.kick).1 (v.exec p.kick).2 := by
  have hstart := h.exec_startRun hb hsize
  unfold kick
  rw [Scene.exec_bind]
  rcases hexec : v.exec p.startRun with ⟨⟨started, p'⟩, v'⟩
  rw [hexec] at hstart
  obtain ⟨hworking, hchannel, hring, hstorage, htarget, hmemory, hfresh⟩ := hstart
  cases started with
  | ok u =>
    exact ⟨hworking.withError none, hchannel, hring, hstorage, htarget, hmemory, hfresh⟩
  | error e =>
    exact ⟨hworking.withError (some e), hchannel, hring, hstorage, htarget, hmemory, hfresh⟩

/-! ## Writing -/

theorem isIdle_eq (h : p.Working v moved) : p.isIdle = !p.stream.bound := by
  unfold isIdle
  by_cases hb : p.stream.bound = true
  · have hpos := (h.busy hb).pos
    simp [hb, Nat.ne_of_gt hpos]
  · have hb' := Bool.eq_false_iff.mpr hb
    simp [hb', h.idle hb']

/-- Data that is queued behind the bytes being sent does not disturb them. -/
theorem Working.filled (h : p.Working v moved) {data : List UInt8} {ring : Ring} {m : Memory}
    (hf : p.ring.Filled v.memory p.storage data ring m) :
    Working { p with ring } { v with memory := m } moved where
  ring := hf.valid
  store := by
    show p.storage + ring.capacity ≤ m.bytes.size
    rw [hf.capacity, hf.size]
    exact h.store
  apart := by
    show p.target < p.storage ∨ p.storage + ring.capacity ≤ p.target
    rw [hf.capacity]
    exact h.apart
  sound := h.sound.imp fun k hk => hk.congr rfl rfl hk.template rfl rfl rfl rfl fun _ => rfl
  single := h.single
  config := h.config
  stalled := h.stalled
  idle := h.idle
  busy hb := by
    have hflight := h.busy hb
    have hsize := hf.size_eq
    -- the bytes that were moved lie in front of the new ones
    have htake : (p.contents v.memory ++ data).take (p.inFlight - v.remaining) =
        (p.contents v.memory).take (p.inFlight - v.remaining) := by
      apply List.take_append_of_le_length
      rw [contents, Ring.length_contents]
      exact Nat.le_trans (Nat.sub_le ..) hflight.le_size
    refine ⟨hflight.pos, ?_, ?_, ?_, hflight.remaining_le, hflight.stopped, ?_⟩
    · exact Nat.le_trans hflight.le_size (hsize ▸ Nat.le_add_right _ _)
    · show ring.head + p.inFlight ≤ ring.capacity
      rw [hf.head, hf.capacity]
      exact hflight.contiguous
    · show _ = TransferSettings.block _ p.target (p.storage + ring.head) p.inFlight
      rw [hf.head]
      exact hflight.block
    · show moved = ((ring.contents (m.cells p.storage)).take _).map _
      rw [hf.contents]
      exact hflight.moved.trans (congrArg (List.map _) htake.symm)

/-- What a write comes to: the data is queued as far as it fits, and an idle pump starts. -/
theorem write_cases (h : p.Working v moved) (data : List UInt8) :
    ∃ ring m,
      p.ring.Filled v.memory p.storage (data.take (min data.length p.ring.available)) ring m ∧
      v.exec (p.write data) =
        if p.stream.bound = false ∧ ring.size ≠ 0 then
          ((min data.length p.ring.available,
              (Scene.exec { v with memory := m } (kick { p with ring })).1),
            (Scene.exec { v with memory := m } (kick { p with ring })).2)
        else
          ((min data.length p.ring.available, { p with ring }), { v with memory := m }) := by
  obtain ⟨ring, m, hexec, hf⟩ := h.ring.exec_fill v h.store data
  refine ⟨ring, m, hf, ?_⟩
  unfold write
  rw [Scene.exec_bind, hexec]
  show Scene.exec { v with memory := m } (if isIdle p && !ring.isEmpty then _ else _) = _
  rw [Scene.exec_ite, isIdle_eq h]
  by_cases hgo : p.stream.bound = false ∧ ring.size ≠ 0
  · rw [if_pos (by simpa [Ring.isEmpty] using hgo), if_pos hgo, Scene.exec_bind]
    rfl
  · rw [if_neg (by simpa [Ring.isEmpty] using hgo), if_neg hgo]
    rfl

/-- **A write while a transfer is under way** queues data behind it and does nothing else. -/
theorem Working.exec_write_busy (h : p.Working v moved) (hb : p.stream.bound = true)
    (data : List UInt8) :
    ∃ ring m,
      p.ring.Filled v.memory p.storage (data.take (min data.length p.ring.available)) ring m ∧
      v.exec (p.write data) =
        ((min data.length p.ring.available, { p with ring }), { v with memory := m }) := by
  obtain ⟨ring, m, hf, hexec⟩ := write_cases h data
  have hgo : ¬(p.stream.bound = false ∧ ring.size ≠ 0) := by
    rintro ⟨hunbound, -⟩
    rw [hb] at hunbound
    cases hunbound
  rw [if_neg hgo] at hexec
  exact ⟨ring, m, hf, hexec⟩

/-- What a write leaves behind on an idle pump: the data is queued, and a transfer may be under way
of which nothing has been sent. -/
theorem Working.exec_write_idle (h : p.Working v moved) (hb : p.stream.bound = false)
    (data : List UInt8) :
    ∃ ring m,
      p.ring.Filled v.memory p.storage (data.take (min data.length p.ring.available)) ring m ∧
      (v.exec (p.write data)).1.1 = min data.length p.ring.available ∧
      Kicked { p with ring } { v with memory := m } moved (v.exec (p.write data)).1.2
        (v.exec (p.write data)).2 := by
  obtain ⟨ring, m, hf, hexec⟩ := write_cases h data
  have hfilled := h.filled hf
  refine ⟨ring, m, hf, ?_⟩
  rw [hexec]
  by_cases hempty : ring.size = 0
  · rw [if_neg fun hgo => hgo.2 hempty]
    have hidle := h.idle hb
    refine ⟨rfl, ?_, rfl, rfl, rfl, rfl, rfl, Nat.le_trans (Nat.le_of_eq hidle) (Nat.zero_le _)⟩
    exact (if_pos (rfl : v.starts = v.starts)).symm ▸ hfilled
  · rw [if_pos ⟨hb, hempty⟩]
    exact ⟨rfl, hfilled.exec_kick hb (Nat.pos_of_ne_zero hempty)⟩

/-- What a write leaves behind that took so many bytes. -/
structure Wrote (p : TransmitPump) (v : Scene) (moved : List (Nat × UInt8)) (data : List UInt8)
    (count : Nat) (p' : TransmitPump) (v' : Scene) : Prop where
  working : p'.Working v' (if v'.starts = v.starts then moved else [])
  channel : p'.stream.channel = p.stream.channel
  target : p'.target = p.target
  contents : p'.contents v'.memory = p.contents v.memory ++ data.take count

/-- **The bytes that a write reports are those that it queued**, behind all others. -/
theorem Working.exec_write (h : p.Working v moved) (data : List UInt8) :
    p.Wrote v moved data (v.exec (p.write data)).1.1 (v.exec (p.write data)).1.2
      (v.exec (p.write data)).2 := by
  by_cases hb : p.stream.bound = true
  · obtain ⟨ring, m, hf, hexec⟩ := h.exec_write_busy hb data
    rw [hexec]
    exact ⟨(if_pos (rfl : v.starts = v.starts)).symm ▸ h.filled hf, rfl, rfl, hf.contents⟩
  · obtain ⟨ring, m, hf, hcount, hkicked⟩ := h.exec_write_idle (Bool.eq_false_iff.mpr hb) data
    refine ⟨hkicked.working, hkicked.channel, hkicked.target, ?_⟩
    rw [hcount, contents, hkicked.ring, hkicked.storage, hkicked.memory]
    exact hf.contents

/-- A transfer of which nothing has been sent has written nothing. -/
theorem Working.moved_of_fresh (h : p.Working v moved) (hfresh : p.inFlight ≤ v.remaining) :
    (if p.stream.bound then moved else []) = [] := by
  split
  · next hb =>
    rw [(h.busy hb).moved, Nat.sub_eq_zero_of_le hfresh]
    rfl
  · rfl

/-! ## Moves of the controller -/

/-- Without a transfer the controller has stopped. -/
theorem Working.stopped (h : p.Working v moved) (hb : p.stream.bound = false) : v.current = 0 := by
  obtain ⟨k, hk⟩ := h.sound
  exact hk.stopped hb

theorem Working.oneShot (h : p.Working v moved) : p.stream.isCircular = false := by
  rw [Stream.isCircular, h.config]
  rfl

/-- A controller that executes is at the one descriptor of a stream that holds the channel. -/
theorem Working.executing (h : p.Working v moved) (hc : v.current ≠ 0) :
    p.stream.bound = true ∧ v.current = p.stream.pool.addressOf 0 ∧ p.stream.pool.queued = 1 := by
  obtain ⟨k, hk⟩ := h.sound
  obtain ⟨hb, hq, hcur⟩ := hk.executing hc
  have hle := hk.sits.queued_le
  have hcap := h.single
  exact ⟨hb, hcur.trans (Pool.addressAt_single hcap k), by omega⟩

/-- The bytes that are moved next lie side by side in memory. -/
theorem Flight.readList_eq (hf : p.Flight v moved) {count : Nat} (hle : count ≤ v.remaining) :
    v.memory.readList (p.storage + p.ring.head + (p.inFlight - v.remaining)) count =
      ((p.contents v.memory).drop (p.inFlight - v.remaining)).take count := by
  have hremaining := hf.remaining_le
  have hrun : v.memory.readList (p.storage + p.ring.head) p.inFlight =
      (p.contents v.memory).take p.inFlight := Ring.readList_eq hf.le_size hf.contiguous
  have hdrop : v.memory.readList (p.storage + p.ring.head + (p.inFlight - v.remaining))
      (p.inFlight - (p.inFlight - v.remaining)) =
        ((p.contents v.memory).take p.inFlight).drop (p.inFlight - v.remaining) := by
    rw [← Memory.drop_readList _ _ (Nat.sub_le ..), hrun]
  rw [List.drop_take] at hdrop
  have htake := congrArg (List.take count) hdrop
  rw [Memory.take_readList _ _ (by omega), List.take_take] at htake
  rw [htake]
  congr 1
  omega

/-- What the controller writes next are the next bytes of the run that it sends. -/
theorem Working.writes_eq (h : p.Working v moved) (hb : p.stream.bound = true) (count : Nat) :
    v.writes count =
      (((p.contents v.memory).drop (p.inFlight - v.remaining)).take (min count v.remaining)).map
        (p.target, ·) := by
  have hf := h.busy hb
  by_cases hc : v.current = 0
  · rw [Scene.writes, if_pos hc, hf.stopped hc, Nat.min_zero]
    rfl
  · obtain ⟨-, hcur, -⟩ := h.executing hc
    rw [Scene.writes, if_neg hc, hcur]
    obtain ⟨d, hd⟩ : ∃ d, v.table.read (p.stream.pool.addressOf 0) = d := ⟨_, rfl⟩
    have hblock : d.block = p.run p.inFlight := hd ▸ hf.block
    have hsource : d.source = p.storage + p.ring.head := congrArg Block.source hblock
    have hdestination : d.destination = p.target := congrArg Block.destination hblock
    have helements : d.elements = p.inFlight := congrArg Block.elements hblock
    have hle := hf.remaining_le
    have hcontiguous := hf.contiguous
    have hapart := h.apart
    have hout : ∀ i, p.inFlight - v.remaining ≤ i →
        i < p.inFlight - v.remaining + min count v.remaining → d.source + i ≠ d.destination := by
      intro i _ hi
      rw [hsource, hdestination]
      omega
    rw [hd]
    show v.memory.elementWrites d (d.elements - v.remaining) _ = _
    rw [helements, v.memory.elementWrites_toRegister (congrArg Block.elementBytes hblock)
      (congrArg Block.sourceFixed hblock) (congrArg Block.destinationFixed hblock) hout,
      hsource, hdestination, hf.readList_eq (Nat.min_le_right ..)]

/-- The register is none of the cells of the queue. -/
theorem Working.contents_writeEach (h : p.Working v moved) {bytes : List UInt8} :
    p.contents (v.memory.writeEach (bytes.map (p.target, ·))) = p.contents v.memory := by
  apply h.ring.contents_congr
  intro i hi
  apply v.memory.read_writeEach_of_ne
  intro w hw
  obtain ⟨byte, -, rfl⟩ := List.mem_map.mp hw
  have hapart := h.apart
  show p.target ≠ p.storage + i
  omega

theorem Working.moveElements (h : p.Working v moved) (count : Nat) :
    p.Working (v.moveElements count) (moved ++ v.writes count) ∧
      p.contents (v.moveElements count).memory = p.contents v.memory := by
  by_cases hb : p.stream.bound = true
  · have hf := h.busy hb
    have hwrites := h.writes_eq hb count
    have hmemory := v.memory_moveElements count
    have hcontents : p.contents (v.moveElements count).memory = p.contents v.memory := by
      rw [hmemory, hwrites]
      exact h.contents_writeEach
    have hle := hf.remaining_le
    have hremaining : (v.moveElements count).remaining = v.remaining - min count v.remaining := by
      unfold Scene.moveElements
      by_cases hc : v.current = 0
      · rw [if_pos hc, hf.stopped hc]
        omega
      · rw [if_neg hc]
    refine ⟨⟨h.ring, ?_, h.apart, h.sound.imp fun k hk => hk.moveElements count, h.single, h.config,
      h.stalled, h.idle, fun _ => ⟨hf.pos, hf.le_size, hf.contiguous, ?_, ?_, ?_, ?_⟩⟩, hcontents⟩
    · rw [hmemory, Memory.size_writeEach]
      exact h.store
    · rw [Scene.table_moveElements]
      exact hf.block
    · rw [hremaining]
      omega
    · intro hc
      rw [Scene.current_moveElements] at hc
      rw [hremaining, hf.stopped hc]
      omega
    · have hdone : p.inFlight - (v.remaining - min count v.remaining) =
          p.inFlight - v.remaining + min count v.remaining := by omega
      rw [hcontents, hremaining, hdone, List.take_add, List.map_append, ← hf.moved, hwrites]
  · have hc := h.stopped (Bool.eq_false_iff.mpr hb)
    rw [Scene.moveElements, if_pos hc, Scene.writes, if_pos hc, List.append_nil]
    exact ⟨h, rfl⟩

/-- A controller that executes does so for the transfer under way, and has no block to go on to. -/
theorem Working.stops (h : p.Working v moved) (hc : v.current ≠ 0) :
    p.stream.bound = true ∧ v.nextLink = 0 ∧ ∃ k, p.stream.Sound v.finish k := by
  obtain ⟨k, hk⟩ := h.sound
  obtain ⟨hb, -, hq⟩ := h.executing hc
  -- one place on lies behind the only block
  have hsound := hk.finish
  rw [if_neg hc, Stream.follow_oneShot h.oneShot] at hsound
  have hstop : v.finish.current = 0 := (hsound.engaged hb).stands.stopped_of_le (by omega)
  rw [Scene.finish_running hc] at hstop
  exact ⟨hb, hstop, k + 1, hsound⟩

/-- At the end of its transfer the controller has moved every byte, and stops. -/
theorem Working.finish (h : p.Working v moved) :
    p.Working v.finish (moved ++ v.writes v.remaining) ∧
      p.contents v.finish.memory = p.contents v.memory := by
  by_cases hc : v.current = 0
  · rw [Scene.finish_stopped hc, Scene.writes, if_pos hc, List.append_nil]
    exact ⟨h, rfl⟩
  · obtain ⟨hb, hnext, hsound⟩ := h.stops hc
    obtain ⟨hmoved, hcontents⟩ := h.moveElements v.remaining
    have hf := hmoved.busy hb
    have hzero : v.finish.remaining = 0 := by
      rw [Scene.finish_running hc, Scene.load, if_pos hnext]
    have hleft : (v.moveElements v.remaining).remaining = 0 := by
      rw [Scene.moveElements, if_neg hc, Nat.min_self]
      exact Nat.sub_self v.remaining
    have hmemory : v.finish.memory = (v.moveElements v.remaining).memory := by
      rw [Scene.finish_running hc]
      rfl
    rw [hmemory]
    refine ⟨⟨h.ring, ?_, h.apart, hsound, h.single, h.config, h.stalled, h.idle,
      fun _ => ⟨hf.pos, hf.le_size, hf.contiguous, ?_, ?_, fun _ => hzero, ?_⟩⟩, hcontents⟩
    · rw [hmemory]
      exact hmoved.store
    · rw [Scene.table_finish]
      exact (h.busy hb).block
    · rw [hzero]
      exact Nat.zero_le _
    · rw [hmemory, hzero, ← hleft]
      exact hf.moved

end TransmitPump

end ScatterGather

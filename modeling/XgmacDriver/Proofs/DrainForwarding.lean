import XgmacDriver.Proofs.DrainSteps

/-! # What a drain forwards

A drain is followed descriptor by descriptor, and each one adds a `Handling` to its record. What was
asked and what was offered to the stack since the drain began is what the record says.
-/

namespace XgmacDriver

variable {σ : Type}

/-! ## The record -/

theorem filterMap_concat {α β : Type} (f : α → Option β) (as : List α) (a : α) :
    (as ++ [a]).filterMap f = as.filterMap f ++ (f a).toList := by
  cases hf : f a <;> simp [hf]

theorem map_frame_of (memory : Memory) (fs : List RxFrame) :
    (fs.map (Delivery.of memory)).map (·.frame) = fs := by
  rw [List.map_map]
  exact List.map_id fs

/-- Frames are copied, into buffers that are the stack's own. -/
structure OwnCopies (m : Machine σ) (handled : List Handling) : Prop where
  copying : m.interface.config.zeroCopyRx = false
  grants : OwnGrants m.interface (RxCompletion.buffers m.engine.completed) handled

/-- Since `m` the descriptors in `handled` were read, in order, and their frames were offered to the
stack, apart from `batch`, which is left to be offered. -/
structure DrainAccount (c : Collaborators σ) (m : Machine σ) (handled : List Handling)
    (batch : List RxFrame) (v : DrainView) : Prop where
  queue : m.engine.completed = handled.map (·.rx) ++ v.completed
  bytes : Stepwise (fun before h => ∀ buf, h.rx.buf = some buf →
    h.bytes = (m.interface.copies m.memory before).read buf h.length) handled
  considered : ∀ h ∈ handled, h.rx.buf.isSome = true → h.screened m.interface = true →
    ∃ w, (c.considerFrame h.bytes w).1 = h.verdict
  frames : v.offers.map (·.frame) ++ batch = handled.filterMap (Handling.frame m.interface)
  contents : OwnCopies m handled →
    v.offers ++ batch.map (Delivery.of v.memory) = handled.filterMap (Handling.delivery m.interface)
  received : OwnCopies m handled → ∀ h ∈ handled, ∀ buf, h.rx.buf = some buf →
    h.bytes = m.memory.read buf h.length

structure DrainUnderway (c : Collaborators σ) (m : Machine σ) (handled : List Handling)
    (batch : List RxFrame) (v : DrainView) : Prop extends DrainAccount c m handled batch v where
  interface : v.interface = m.interface
  memory : v.memory = m.interface.copies m.memory handled
  batch_eq : batch = m.interface.held handled
  untouched : OwnCopies m handled → ∀ a ∈ RxCompletion.buffers m.engine.completed,
    ∀ k ≤ maxPacketSize, v.memory.read a k = m.memory.read a k

/-- The drain is over: at a descriptor without a buffer, at a refused refill, or when there was no
descriptor left. -/
structure Drained (c : Collaborators σ) (m : Machine σ) (handled : List Handling)
    (batch : List RxFrame) (v : DrainView) : Prop extends DrainAccount c m handled batch v where
  stops : ∀ h ∈ handled.dropLast, h.stops = false
  exhausted : handled.any (·.stops) = false → v.completed = []
  inquiries : v.inquiries = handled.flatMap (Handling.inquiries m.interface) ++
    if handled.any (·.stops) then [] else [.nextReceived none]

theorem OwnCopies.of_concat {m : Machine σ} {handled : List Handling} {h : Handling}
    (hcopies : OwnCopies m (handled ++ [h])) : OwnCopies m handled :=
  ⟨hcopies.copying, (stepwise_concat.mp hcopies.grants).1⟩

section

variable {c : Collaborators σ} {m : Machine σ} {handled : List Handling} {batch : List RxFrame}
  {v v' : DrainView} {h : Handling}

theorem drainUnderway_start (c : Collaborators σ) (m : Machine σ) :
    DrainUnderway c m [] [] ⟨m.interface, m.engine.completed, m.memory, [], []⟩ where
  queue := rfl
  bytes := stepwise_nil
  considered _ hh := absurd hh List.not_mem_nil
  frames := rfl
  contents _ := rfl
  received _ _ hh := absurd hh List.not_mem_nil
  interface := rfl
  memory := rfl
  batch_eq := rfl
  untouched _ _ _ _ _ := rfl

theorem DrainAccount.frame_of_mem (ha : DrainAccount c m handled batch v) {f : RxFrame}
    (hf : f ∈ batch) : ∃ h ∈ handled, h.frame m.interface = some f := by
  have hmem : f ∈ handled.filterMap (Handling.frame m.interface) :=
    ha.frames ▸ List.mem_append_right _ hf
  exact List.mem_filterMap.mp hmem

/-- Copying the next frame leaves the frames that are held back as they are. -/
theorem DrainUnderway.held_kept (hu : DrainUnderway c m handled batch v)
    (hcopies : OwnCopies m (handled ++ [h])) :
    batch.map (Delivery.of (h.copied m.interface v.memory)) = batch.map (Delivery.of v.memory) := by
  obtain ⟨hcopying, hgrants⟩ := hcopies
  apply List.map_congr_left
  intro g hg
  cases hframe : h.frame m.interface with
  | none => rw [Handling.copied_of_frame_eq_none hcopying hframe]
  | some f =>
      obtain ⟨buf, p, -, hp, -, hcopied⟩ :=
        Handling.copied_of_frame_eq_some v.memory hcopying hframe
      have hclear := ((stepwise_concat.mp hgrants).2 f hframe).2 g (hu.batch_eq ▸ hg)
      obtain ⟨h', -, hframe'⟩ := hu.frame_of_mem hg
      rw [hcopied, Memory.copy]
      refine Delivery.of_write (fun q hq => ?_) (Handling.frame_length_le hframe')
      have hapart := hclear q hq p hp
      rw [Memory.length_read]
      omega

theorem delivery_of_copied {memory : Memory} {f : RxFrame} {i : Interface} {buf : Addr}
    (hcopying : i.config.zeroCopyRx = false) (hframe : h.frame i = some f)
    (hbuf : h.rx.buf = some buf) (hbytes : h.bytes = memory.read buf h.length) :
    Delivery.of (h.copied i memory) f = ⟨f, h.bytes.take f.buffer.length⟩ := by
  obtain ⟨buf', p, hbuf', hp, hlength, hcopied⟩ :=
    Handling.copied_of_frame_eq_some memory hcopying hframe
  obtain rfl : buf = buf' := Option.some.inj (hbuf.symm.trans hbuf')
  have hle : f.buffer.length ≤ min h.length f.buffer.capacity := by omega
  have hread : (h.copied i memory).read p f.buffer.length = h.bytes.take f.buffer.length := by
    calc
      _ = ((h.copied i memory).read p (min h.length f.buffer.capacity)).take f.buffer.length :=
        (Memory.read_take _ _ hle).symm
      _ = (memory.read buf (min h.length f.buffer.capacity)).take f.buffer.length := by
        rw [hcopied, Memory.read_copy_self]
      _ = memory.read buf f.buffer.length := Memory.read_take _ _ hle
      _ = h.bytes.take f.buffer.length := by
        rw [hbytes, Memory.read_take _ _ (by omega)]
  simp only [Delivery.of, hp, hread]

/-- One more descriptor is handled: with `batch` held back before and `batch'` afterwards. -/
structure Handles (c : Collaborators σ) (h : Handling) (v : DrainView) (batch : List RxFrame)
    (v' : DrainView) (batch' : List RxFrame) : Prop where
  queue : v.completed = h.rx :: v'.completed
  bytes : ∀ buf, h.rx.buf = some buf → h.bytes = v.memory.read buf h.length
  considered : h.rx.buf.isSome = true → h.screened v.interface = true →
    ∃ w, (c.considerFrame h.bytes w).1 = h.verdict
  interface : v'.interface = v.interface
  memory : v'.memory = h.copied v.interface v.memory
  batch_eq : batch' = (h.frame v.interface).toList.foldl v.interface.heldBack batch
  offers : ∃ sent, sent ++ batch' = batch ++ (h.frame v.interface).toList ∧
    v'.offers = v.offers ++ sent.map (Delivery.of v'.memory)

namespace Handles

variable {batch' : List RxFrame} (hs : Handles c h v batch v' batch')
include hs

theorem answered (refill : Except EngineStatus Unit) (recycled : Option NetworkBuffer) :
    Handles c (h.answered refill recycled) v batch v' batch' :=
  ⟨hs.queue, hs.bytes, hs.considered, hs.interface, hs.memory, hs.batch_eq, hs.offers⟩

theorem mem_buffers (hu : DrainUnderway c m handled batch v) {buf : Addr}
    (hbuf : h.rx.buf = some buf) : buf ∈ RxCompletion.buffers m.engine.completed := by
  rw [hu.queue, hs.queue]
  exact List.mem_filterMap.mpr ⟨h.rx, by simp, hbuf⟩

theorem untouched (hu : DrainUnderway c m handled batch v) (hcopies : OwnCopies m (handled ++ [h]))
    {a : Addr} (ha : a ∈ RxCompletion.buffers m.engine.completed) {k : Nat}
    (hk : k ≤ maxPacketSize) : v'.memory.read a k = m.memory.read a k := by
  refine Eq.trans ?_ (hu.untouched hcopies.of_concat a ha k hk)
  have hcopying := hcopies.copying
  rw [hs.memory, hu.interface]
  cases hframe : h.frame m.interface with
  | none => rw [Handling.copied_of_frame_eq_none hcopying hframe]
  | some f =>
      obtain ⟨buf, p, -, hp, -, hcopied⟩ :=
        Handling.copied_of_frame_eq_some v.memory hcopying hframe
      have hclear := ((stepwise_concat.mp hcopies.grants).2 f hframe).1 a ha p hp
      rw [hcopied, Memory.copy]
      apply Memory.read_write_of_disjoint
      rw [Memory.length_read]
      unfold Interface.receivedLength at hclear
      omega

theorem frames (hu : DrainUnderway c m handled batch v) :
    v'.offers.map (·.frame) ++ batch' =
      (handled ++ [h]).filterMap (Handling.frame m.interface) := by
  obtain ⟨sent, hsent, hoffers⟩ := hs.offers
  calc
    _ = v.offers.map (·.frame) ++ (sent ++ batch') := by
      rw [hoffers, List.map_append, map_frame_of, List.append_assoc]
    _ = (v.offers.map (·.frame) ++ batch) ++ (h.frame m.interface).toList := by
      rw [hsent, hu.interface, List.append_assoc]
    _ = _ := by rw [hu.frames, filterMap_concat]

theorem contents (hu : DrainUnderway c m handled batch v) (hcopies : OwnCopies m (handled ++ [h])) :
    v'.offers ++ batch'.map (Delivery.of v'.memory) =
      (handled ++ [h]).filterMap (Handling.delivery m.interface) := by
  obtain ⟨sent, hsent, hoffers⟩ := hs.offers
  have hnew : (h.frame m.interface).toList.map (Delivery.of v'.memory) =
      (h.delivery m.interface).toList := by
    rw [hs.memory, hu.interface, Handling.delivery]
    cases hframe : h.frame m.interface with
    | none => rfl
    | some f =>
        obtain ⟨buf, -, hbuf, -⟩ :=
          Handling.copied_of_frame_eq_some v.memory hcopies.copying hframe
        simp [delivery_of_copied hcopies.copying hframe hbuf (hs.bytes buf hbuf)]
  have hkept : batch.map (Delivery.of v'.memory) = batch.map (Delivery.of v.memory) := by
    rw [hs.memory, hu.interface, hu.held_kept hcopies]
  calc
    _ = v.offers ++ (sent ++ batch').map (Delivery.of v'.memory) := by
      rw [hoffers, List.map_append, List.append_assoc]
    _ = v.offers ++ batch.map (Delivery.of v.memory) ++ (h.delivery m.interface).toList := by
      rw [hsent, hu.interface, List.map_append, hkept, hnew, List.append_assoc]
    _ = _ := by rw [hu.contents hcopies.of_concat, filterMap_concat]

theorem push (hu : DrainUnderway c m handled batch v) :
    DrainUnderway c m (handled ++ [h]) batch' v' where
  queue := by simp [hu.queue, hs.queue]
  bytes := stepwise_concat.mpr ⟨hu.bytes, hu.memory ▸ hs.bytes⟩
  considered := by
    intro h' hmem
    rcases List.mem_append.mp hmem with hmem | hmem
    · exact hu.considered h' hmem
    · obtain rfl := List.mem_singleton.mp hmem
      exact hu.interface ▸ hs.considered
  frames := hs.frames hu
  contents := hs.contents hu
  received := by
    intro hcopies h' hmem buf hbuf
    rcases List.mem_append.mp hmem with hmem | hmem
    · exact hu.received hcopies.of_concat h' hmem buf hbuf
    · obtain rfl := List.mem_singleton.mp hmem
      exact (hs.bytes buf hbuf).trans
        (hu.untouched hcopies.of_concat buf (hs.mem_buffers hu hbuf) _ (Nat.min_le_right _ _))
  interface := hs.interface.trans hu.interface
  memory := by
    rw [hs.memory, hu.interface, hu.memory, Interface.copies, Interface.copies, List.foldl_append]
    rfl
  batch_eq := by
    rw [hs.batch_eq, hu.interface, hu.batch_eq, Interface.held, Interface.held, filterMap_concat,
      List.foldl_append]
  untouched := fun hcopies _ ha _ hk => hs.untouched hu hcopies ha hk

end Handles

/-- The pool fills a buffer that it gets back, which leaves the frames that are held back as they
are. -/
theorem DrainUnderway.held_filled (hu : DrainUnderway c m handled batch v)
    (hcopies : OwnCopies m handled) {a : Addr}
    (ha : a ∈ RxCompletion.buffers m.engine.completed) :
    batch.map (Delivery.of (v.memory.fill a m.interface.rxPool.slotSize 0)) =
      batch.map (Delivery.of v.memory) := by
  apply List.map_congr_left
  intro g hg
  obtain ⟨h, hmem, hframe⟩ := hu.frame_of_mem hg
  obtain ⟨before, after, hhandled⟩ := List.append_of_mem hmem
  have hclear := (hcopies.grants before h after hhandled g hframe).1 a ha
  refine Delivery.of_write (fun p hp => ?_) (Handling.frame_length_le hframe)
  have hapart := hclear p hp
  unfold Interface.receivedLength at hapart
  rw [List.length_replicate]
  omega

theorem DrainUnderway.account (hu : DrainUnderway c m handled batch v)
    (hcompleted : v'.completed = v.completed) (hoffers : v'.offers = v.offers)
    (hmemory : v'.memory = v.memory ∨
      ∃ a ∈ RxCompletion.buffers m.engine.completed,
        v'.memory = v.memory.fill a m.interface.rxPool.slotSize 0) :
    DrainAccount c m handled batch v' where
  queue := hcompleted ▸ hu.queue
  bytes := hu.bytes
  considered := hu.considered
  frames := hoffers ▸ hu.frames
  contents := by
    intro hcopies
    rw [hoffers, ← hu.contents hcopies]
    obtain hmemory | ⟨a, ha, hmemory⟩ := hmemory
    · rw [hmemory]
    · rw [hmemory, hu.held_filled hcopies ha]
  received := hu.received

theorem Drained.offer (hd : Drained c m handled batch v) :
    Drained c m handled [] (v.offer batch) := by
  refine { hd with frames := ?_, contents := ?_ }
  · rw [DrainView.offer, List.map_append, map_frame_of, List.append_nil, hd.frames]
  · intro hcopies
    rw [List.map_nil, List.append_nil]
    exact hd.contents hcopies

/-- The stack finds the received frame in every buffer that is handed up. -/
theorem Drained.exists_of_mem (hd : Drained c m handled [] v) (hcopies : OwnCopies m handled)
    {d : Delivery} (hmem : d ∈ v.offers) : ∃ h ∈ handled, h.frame m.interface = some d.frame ∧
      ∃ buf, h.rx.buf = some buf ∧ d.bytes = m.memory.read buf d.frame.buffer.length := by
  have hcontents := hd.contents hcopies
  rw [List.map_nil, List.append_nil] at hcontents
  rw [hcontents] at hmem
  obtain ⟨h, hh, hdelivery⟩ := List.mem_filterMap.mp hmem
  obtain ⟨f, hframe, rfl⟩ := Option.map_eq_some_iff.mp hdelivery
  obtain ⟨buf, -, hbuf, -, hlength, -⟩ :=
    Handling.copied_of_frame_eq_some m.memory hcopies.copying hframe
  refine ⟨h, hh, hframe, buf, hbuf, ?_⟩
  rw [hd.received hcopies h hh buf hbuf, Memory.read_take _ _ (by omega)]

theorem DrainAccount.drained_of_stops (ha : DrainAccount c m (handled ++ [h]) batch v)
    (hgoing : ∀ h ∈ handled, h.stops = false) (hstops : h.stops = true)
    (hinquiries : v.inquiries = (handled ++ [h]).flatMap (Handling.inquiries m.interface)) :
    Drained c m (handled ++ [h]) batch v := by
  have hany : (handled ++ [h]).any (·.stops) = true := by simp [hstops]
  refine { ha with stops := ?_, exhausted := ?_, inquiries := ?_ }
  · rwa [List.dropLast_concat]
  · intro hnone
    exact absurd (hany.symm.trans hnone) (by decide)
  · rw [hinquiries, hany, if_pos rfl, List.append_nil]

theorem DrainAccount.drained_of_empty (ha : DrainAccount c m handled batch v)
    (hgoing : ∀ h ∈ handled, h.stops = false) (hempty : v.completed = [])
    (hinquiries : v.inquiries =
      handled.flatMap (Handling.inquiries m.interface) ++ [.nextReceived none]) :
    Drained c m handled batch v := by
  have hany : handled.any (·.stops) = false := by
    rw [List.any_eq_false]
    intro h hh
    simp [hgoing h hh]
  refine { ha with stops := ?_, exhausted := fun _ => hempty, inquiries := ?_ }
  · intro h hh
    exact hgoing h ((List.dropLast_sublist handled).subset hh)
  · rw [hinquiries, hany, if_neg Bool.false_ne_true]

end

structure Awaiting (c : Collaborators σ) (m : Machine σ) (handled : List Handling)
    (batch : List RxFrame) (rest : List RxCompletion) (v : DrainView) : Prop
    extends DrainUnderway c m handled batch v where
  completed : v.completed = rest
  inquiries : v.inquiries = handled.flatMap (Handling.inquiries m.interface)
  going : ∀ h ∈ handled, h.stops = false

/-- The descriptor that had the buffer `buf` is to be given a buffer again. -/
structure Emptied (c : Collaborators σ) (m : Machine σ) (handled : List Handling)
    (batch : List RxFrame) (rest : List RxCompletion) (h : Handling) (buf : Addr) (v : DrainView) :
    Prop where
  buf_eq : h.rx.buf = some buf
  underway : ∀ refill recycled, DrainUnderway c m (handled ++ [h.answered refill recycled]) batch v
  completed : v.completed = rest
  inquiries : v.inquiries = handled.flatMap (Handling.inquiries m.interface) ++
    .nextReceived (some h.rx) :: h.questions m.interface buf
  going : ∀ h ∈ handled, h.stops = false

section

variable {c : Collaborators σ} {m : Machine σ} {handled : List Handling} {batch : List RxFrame}
  {rest : List RxCompletion} {v : DrainView} {h : Handling} {buf : Addr}

theorem awaiting_start (c : Collaborators σ) (m : Machine σ) :
    Awaiting c m [] [] m.engine.completed ⟨m.interface, m.engine.completed, m.memory, [], []⟩ where
  toDrainUnderway := drainUnderway_start c m
  completed := rfl
  inquiries := rfl
  going _ hh := absurd hh List.not_mem_nil

theorem Awaiting.exhausted (hv : Awaiting c m handled batch [] v) :
    Drained c m handled batch { v.asked [.nextReceived none] with completed := [] } := by
  have hend : DrainAccount c m handled batch
      { v.asked [.nextReceived none] with completed := [] } :=
    hv.account hv.completed.symm rfl (Or.inl rfl)
  exact hend.drained_of_empty hv.going rfl (congrArg (· ++ _) hv.inquiries)

theorem Awaiting.bufferless {rx : RxCompletion} (hv : Awaiting c m handled batch (rx :: rest) v)
    (hbuf : rx.buf = none) : Drained c m (handled ++ [.ofVerdict rx [] .process]) batch
      (v.opened rx rest) := by
  have hframe : (Handling.ofVerdict rx [] .process).frame v.interface = none := by
    simp [Handling.frame, Handling.ofVerdict, hbuf]
  have hs : Handles c (.ofVerdict rx [] .process) v batch (v.opened rx rest) batch := {
    queue := hv.completed
    bytes := by simp [Handling.ofVerdict, hbuf]
    considered := by simp [Handling.ofVerdict, hbuf]
    interface := rfl
    memory := by simp [DrainView.opened, Handling.copied, Handling.ofVerdict, hbuf]
    batch_eq := by rw [hframe]; rfl
    offers := ⟨[], by simp [hframe], (List.append_nil _).symm⟩ }
  apply (hs.push hv.toDrainUnderway).drained_of_stops hv.going
  · simp [Handling.stops, Handling.ofVerdict, hbuf]
  · simp [DrainView.opened, DrainView.asked, hv.inquiries, Handling.inquiries,
      Handling.ofVerdict, hbuf]

/-- The frame of the next descriptor was offered or held back, if there is one. -/
theorem Awaiting.emptied {rx : RxCompletion} {result : Driver.Received} {batch' sent : List RxFrame}
    (hv : Awaiting c m handled batch (rx :: rest) v) (hbuf : rx.buf = some buf)
    (hjudged : Driver.Judged c (v.opened rx rest) rx buf result h)
    (hbatch : batch' = (h.frame v.interface).toList.foldl v.interface.heldBack batch)
    (hsent : sent ++ batch' = batch ++ (h.frame v.interface).toList) :
    Emptied c m handled batch' rest h buf (((v.opened rx rest).judged h buf).offer sent) := by
  obtain ⟨rfl, hbytes, hconsidered, -⟩ := hjudged
  have hs : Handles c h v batch (((v.opened h.rx rest).judged h buf).offer sent) batch' := {
    queue := hv.completed
    bytes := by
      intro buf' hbuf'
      obtain rfl : buf = buf' := Option.some.inj (hbuf.symm.trans hbuf')
      exact hbytes
    considered := fun _ => hconsidered
    interface := rfl
    memory := rfl
    batch_eq := hbatch
    offers := ⟨sent, hsent, rfl⟩ }
  exact {
    buf_eq := hbuf
    underway := fun refill recycled => (hs.answered refill recycled).push hv.toDrainUnderway
    completed := rfl
    inquiries := by
      rw [← hv.inquiries, ← hv.interface]
      exact List.append_assoc _ _ _
    going := hv.going }

theorem Emptied.inquired (hv : Emptied c m handled batch rest h buf v)
    (refill : Except EngineStatus Unit) (recycled : Option NetworkBuffer) :
    (handled ++ [h.answered refill recycled]).flatMap (Handling.inquiries m.interface) =
      v.inquiries ++
        (h.answered refill recycled).refilling m.interface (h.next m.interface buf) := by
  have hbuf : (h.answered refill recycled).rx.buf = some buf := hv.buf_eq
  rw [List.flatMap_append, List.flatMap_singleton, hv.inquiries, List.append_assoc,
    Handling.inquiries, hbuf]
  rfl

theorem Emptied.refilled (hv : Emptied c m handled batch rest h buf v) :
    Awaiting c m (handled ++ [h.answered (.ok ()) none]) batch rest
      (v.asked [.command (.refill (h.next m.interface buf)) (.ok ())]) := by
  have hu := hv.underway (.ok ()) none
  refine { hu with completed := hv.completed, inquiries := ?_, going := ?_ }
  · exact (hv.inquired (.ok ()) none).symm
  · intro h' hmem
    rcases List.mem_append.mp hmem with hmem | hmem
    · exact hv.going h' hmem
    · obtain rfl := List.mem_singleton.mp hmem
      simp [Handling.stops, Handling.answered, hv.buf_eq, Except.isOk, Except.toBool]

/-- A refused refill ends the drain. The pool clears the buffer that it gets back. -/
theorem Emptied.refused (hv : Emptied c m handled batch rest h buf v) (status : EngineStatus)
    (recycled : Option NetworkBuffer) (interface : Interface) {memory : Memory}
    (hmemory : memory = v.memory ∨ m.interface.config.zeroCopyRx = false ∧
      memory = v.memory.fill (h.next m.interface buf) m.interface.rxPool.slotSize 0) :
    Drained c m (handled ++ [h.answered (.error status) recycled]) batch
      { v.asked ((h.answered (.error status) recycled).refilling m.interface
          (h.next m.interface buf)) with interface, memory } := by
  have hu := hv.underway (.error status) recycled
  have hmem : buf ∈ RxCompletion.buffers m.engine.completed := by
    rw [hu.queue]
    exact List.mem_filterMap.mpr ⟨h.rx, by simp [Handling.answered], hv.buf_eq⟩
  have hfilled : memory = v.memory ∨ ∃ a ∈ RxCompletion.buffers m.engine.completed,
      memory = v.memory.fill a m.interface.rxPool.slotSize 0 := by
    refine hmemory.imp_right ?_
    rintro ⟨hcopying, hmemory⟩
    rw [Handling.next, hcopying, Bool.false_and, if_neg Bool.false_ne_true] at hmemory
    exact ⟨buf, hmem, hmemory⟩
  refine DrainAccount.drained_of_stops (hu.account rfl rfl hfilled) hv.going ?_ ?_
  · simp [Handling.stops, Handling.answered, Except.isOk, Except.toBool]
  · exact (hv.inquired (.error status) recycled).symm

end

namespace Driver

variable {c : Collaborators σ} {m₀ : Machine σ} {n : Nat} {handled : List Handling}
  {batch : List RxFrame} {rest : List RxCompletion}

def AtEnd (c : Collaborators σ) (m₀ : Machine σ) (n : Nat) (batch : List RxFrame) (m : Machine σ) :
    Prop :=
  ∃ handled v, Drained c m₀ handled batch v ∧ OnDrain n v m

theorem drained_exhausted (delivered : Nat) :
    Meets (fun m => ∃ v, Awaiting c m₀ handled batch [] v ∧ OnDrain n v m)
      (drain c batch delivered []) fun r => AtEnd c m₀ n r.1 := by
  refine Meets.any fun v => Meets.given fun hv => ?_
  have hread : ∀ e : Engine, e.completed = v.completed →
      e.nextCompleted.1 = none ∧ e.nextCompleted.2.completed = [] := by
    intro e he
    rw [hv.completed] at he
    simp [Engine.nextCompleted, he]
  refine (drained_nextReceived hread).bind fun _ => meets_pure fun m hm => ?_
  exact ⟨handled, _, hv.exhausted, hm⟩

theorem drained_opened {v : DrainView} {rx : RxCompletion} (hqueue : v.completed = rx :: rest) :
    Meets (OnDrain n v) (nextReceived : Driver σ _) fun _ => OnDrain n (v.opened rx rest) := by
  apply drained_nextReceived
  intro e he
  rw [hqueue] at he
  simp [Engine.nextCompleted, he]

theorem drained_bufferless {rx : RxCompletion} (hbuf : rx.buf = none) (delivered : Nat) :
    Meets (fun m => ∃ v, Awaiting c m₀ handled batch (rx :: rest) v ∧ OnDrain n v m)
      (drain c batch delivered (rx :: rest)) fun r => AtEnd c m₀ n r.1 := by
  refine Meets.any fun v => Meets.given fun hv => ?_
  unfold drain
  simp only [hbuf]
  refine (drained_opened hv.completed).bind fun _ => ?_
  refine (drained_report _).bind fun _ => meets_pure fun m hm => ?_
  exact ⟨_, _, hv.bufferless hbuf, hm⟩

/-- The descriptor is given a buffer again, and the drain goes on or ends here. -/
theorem drained_refillAndDrain {refill : Addr} {h : Handling} {buf : Addr} {v : DrainView}
    (hv : Emptied c m₀ handled batch rest h buf v) (hrefill : refill = h.next m₀.interface buf)
    {delivered : Nat}
    (hrest : ∀ handled, Meets (fun m => ∃ v, Awaiting c m₀ handled batch rest v ∧ OnDrain n v m)
      (drain c batch delivered rest) fun r => AtEnd c m₀ n r.1) :
    Meets (OnDrain n v) (do
      match ← command c (.refill refill) with
      | .ok () => drain c batch delivered rest
      | .error status =>
          report (.refillRefused status)
          recycle c refill
          return (batch, delivered)) fun r => AtEnd c m₀ n r.1 := by
  subst hrefill
  refine (drained_refill _).bind ?_
  rintro (status | ⟨⟩)
  · refine (drained_report _).bind fun _ => ?_
    refine (drained_recycle _).bind fun _ => meets_pure ?_
    rintro m ⟨recycled, i, memory, hmemory, hm⟩
    have hinterface : v.interface = m₀.interface := (hv.underway (.ok ()) none).interface
    simp only [DrainView.interface_asked, DrainView.memory_asked, hinterface] at hmemory hm
    refine ⟨_, _, hv.refused status recycled i hmemory, ?_⟩
    have hasked : ∀ a, (h.answered (.error status) recycled).refilling m₀.interface a =
        [.command (.refill a) (.error status)] ++
          if m₀.interface.config.zeroCopyRx then [.lookup a recycled] else [] := by
      intro a
      simp [Handling.refilling, Handling.answered, Except.isOk, Except.toBool]
    rw [hasked, ← DrainView.asked_asked]
    exact hm
  · exact (hrest _).pre fun m hm => ⟨_, hv.refilled, hm⟩

/-- One descriptor after the other, by induction on the queue. -/
theorem drained_drain (delivered : Nat) :
    Meets (fun m => ∃ v, Awaiting c m₀ handled batch rest v ∧ OnDrain n v m)
      (drain c batch delivered rest) fun r => AtEnd c m₀ n r.1 := by
  induction rest generalizing handled batch delivered with
  | nil => exact drained_exhausted delivered
  | cons rx rest ih =>
      cases hbuf : rx.buf with
      | none => exact drained_bufferless hbuf delivered
      | some buf =>
          refine Meets.any fun v => Meets.given fun hv => ?_
          have hinterface := hv.interface
          unfold drain
          simp only [hbuf]
          refine (drained_opened hv.completed).bind fun _ => ?_
          refine (drained_receiveFrame hbuf).bind fun result => Meets.any fun h => ?_
          refine Meets.given fun hjudged => ?_
          cases result with
          | forward frame refill =>
              obtain ⟨hframe, hrefill⟩ := Handling.frame_of_result_forward (i := v.interface)
                hjudged.result_eq
              have hsingle : v.interface.config.linkedRx = false → batch = [] := by
                intro hsingle
                rw [hv.batch_eq, ← hinterface, Interface.held_eq_nil hsingle]
              have hdeliver := drained_deliver (c := c) (n := n)
                (v := (v.opened rx rest).judged h buf) hsingle frame
              refine hdeliver.bind fun r => ?_
              refine Meets.given fun hbatch => Meets.any fun sent => Meets.given fun hsent => ?_
              have hbatch : r.1 =
                  (h.frame v.interface).toList.foldl v.interface.heldBack batch := by
                rw [hframe]
                exact hbatch
              have hsent : sent ++ r.1 = batch ++ (h.frame v.interface).toList := by
                rw [hframe]
                exact hsent
              exact drained_refillAndDrain (hv.emptied hbuf hjudged hbatch hsent)
                (hinterface ▸ hrefill) fun _ => ih _
          | drop refill =>
              obtain ⟨hframe, hrefill⟩ := Handling.frame_of_result_drop (i := v.interface)
                hjudged.result_eq
              have hbatch : batch =
                  (h.frame v.interface).toList.foldl v.interface.heldBack batch := by
                rw [hframe]
                rfl
              have hsent : [] ++ batch = batch ++ (h.frame v.interface).toList := by
                rw [hframe]
                exact (List.append_nil _).symm
              have hemptied := hv.emptied hbuf hjudged hbatch hsent
              rw [DrainView.offer_nil] at hemptied
              exact drained_refillAndDrain hemptied (hinterface ▸ hrefill) fun _ => ih _

theorem drained_processReceived (m : Machine σ) (hopen : m.interface.engineOpen = true) :
    ∃ handled,
      Drained c m handled [] (((processReceived c).run m).2.drainView m.trace.size) := by
  have hdrain : Meets (fun m' => ∃ v, Awaiting c m [] [] m.engine.completed v ∧
      OnDrain m.trace.size v m') (do
        let r ← drain c [] 0 m.engine.completed
        return r.2 + (← passToStack c r.1)) fun _ => AtEnd c m m.trace.size [] := by
    refine (drained_drain 0).bind fun r => ?_
    refine Meets.any fun handled => Meets.any fun v => Meets.given fun hd => ?_
    refine (drained_passToStack r.1).bind fun _ => meets_pure fun m hm => ?_
    exact ⟨handled, _, hd.offer, hm⟩
  have hrun : (processReceived c).run m =
      (do let r ← drain c [] 0 m.engine.completed
          return r.2 + (← passToStack c r.1)).run m := by
    simp [processReceived, hopen]
  obtain ⟨handled, v, hd, hm⟩ := hdrain m ⟨_, awaiting_start c m, .start m⟩
  rw [hrun, hm.drainView_eq]
  exact ⟨handled, hd⟩

/-- The drain handles descriptors in order, up to the first one without a buffer or with a refused
refill. Which of their frames it forwards, with which length and, if it copies them, with which
bytes. -/
theorem processReceived_forwards (c : Collaborators σ) (m : Machine σ)
    (hopen : m.interface.engineOpen = true) :
    ∃ handled v, v = ((processReceived c).run m).2.drainView m.trace.size ∧
      Drained c m handled [] v ∧
      (∀ h ∈ handled, h.rx.buf.isSome = true → ((h.frame m.interface).isSome = true ↔
        ¬(h.rx.status &&& RxCompletion.lastDescriptor ≠ 0 ∧
            h.rx.status &&& RxCompletion.errorSummary ≠ 0) ∧
          (m.interface.config.filterFrames = true → h.verdict = .process) ∧
          (∃ buffer p, h.grant = some buffer ∧ buffer.payload = some p) ∧
          (m.interface.config.zeroCopyRx = true → ∃ buffer, h.owner = some buffer))) ∧
      (∀ mac, (∀ bytes w, (c.considerFrame bytes w).1 = Ethernet.classify mac bytes) →
        ∀ h ∈ handled, h.rx.buf.isSome = true → h.screened m.interface = true →
          (h.verdict = .process ↔ Ethernet.headerLength ≤ h.bytes.length ∧
            (Ethernet.destination h.bytes = mac.octets.toList ∨
              Ethernet.isGroup (Ethernet.destination h.bytes) = true) ∧
            (Ethernet.etherType h.bytes = Ethernet.arp ∨
              Ethernet.etherType h.bytes = Ethernet.ipv4 ∨
              Ethernet.etherType h.bytes = Ethernet.ipv6))) ∧
      (∀ h ∈ handled, ∀ f, h.frame m.interface = some f → ∃ buffer,
        (if m.interface.config.zeroCopyRx then h.owner else h.grant) = some buffer ∧
          f.buffer = { buffer with
            length := min (min h.rx.size maxPacketSize) buffer.capacity - ethernetCrcLength }) ∧
      (OwnCopies m handled → ∀ d ∈ v.offers, ∃ h ∈ handled, h.frame m.interface = some d.frame ∧
        ∃ buf, h.rx.buf = some buf ∧ d.bytes = m.memory.read buf d.frame.buffer.length) := by
  obtain ⟨handled, hd⟩ := drained_processReceived (c := c) m hopen
  refine ⟨handled, _, rfl, hd, ?_, ?_, ?_, ?_⟩
  · intro h _ hbuf
    rw [Handling.frame_isSome_iff hbuf, Handling.admitted_iff, ← RxCompletion.hasError_iff,
      Bool.not_eq_true, and_assoc]
  · intro mac hclassify h hh hbuf hscreened
    obtain ⟨w, hverdict⟩ := hd.considered h hh hbuf hscreened
    rw [← hverdict, hclassify]
    exact Ethernet.classify_eq_process_iff
  · intro h _ f hframe
    obtain ⟨-, buffer, hdelivered, rfl⟩ := Handling.frame_eq_some_iff.mp hframe
    exact ⟨buffer, (Handling.delivered_eq_some_iff.mp hdelivered).2, rfl⟩
  · intro hcopies d hmem
    exact hd.exists_of_mem hcopies hmem

/-- A broadcast frame that carries IPv4, with its checksum. -/
def broadcastFrame : List UInt8 :=
  List.replicate 6 0xFF ++ List.replicate 6 2 ++ [0x08, 0x00] ++ [1, 2, 3, 4, 5, 6] ++ [9, 9, 9, 9]

/-- An arena behind the default filter. -/
def filteringStack : Collaborators Arena where
  __ := Collaborators.ofArena (.ok ()) true
  considerFrame bytes a := (Ethernet.classify ⟨#v[2, 2, 2, 2, 2, 2]⟩ bytes, a)

/-- A frame with an error, a broadcast frame, a descriptor without a buffer, and one more frame. -/
def fourDescriptors : Machine Arena where
  interface := { index := 0, config := {}, engineOpen := true }
  engine := { completed := [
    ⟨some regionStart, 24, RxCompletion.packetError⟩,
    ⟨some (regionStart.add 1536), 24, RxCompletion.lastDescriptor⟩,
    ⟨none, 0, 0⟩,
    ⟨some (regionStart.add 3072), 24, 0⟩] }
  clock := .startingAt 0 0
  memory := Memory.zeroed.write (regionStart.add 1536) broadcastFrame
  trace := #[]
  log := #[]
  world := .ofRegion (regionStart.add 1048576) 4 2048

/-- The broadcast frame in the first buffer of the arena. -/
def grantedFrame : RxFrame where
  buffer := {
    index := 0
    payload := some (fourDescriptors.world.payloadAt 0)
    capacity := fourDescriptors.world.payloadCapacity
    length := 20 }
  interface := 0
  endpoint := none

theorem processReceived_forwards_four_descriptors : ∃ handled v,
    v = ((processReceived filteringStack).run fourDescriptors).2.drainView 0 ∧
      Drained filteringStack fourDescriptors handled [] v ∧ handled.length = 3 ∧
      OwnCopies fourDescriptors handled ∧
      v.offers.map (·.bytes) = [broadcastFrame.take 20] := by
  obtain ⟨handled, v, hv, hd, -⟩ := processReceived_forwards filteringStack fourDescriptors rfl
  have hleft : v.completed.length = 1 := by
    rw [hv]
    decide +kernel
  have hoffers : v.offers = [⟨grantedFrame, broadcastFrame.take 20⟩] := by
    rw [hv]
    decide +kernel
  have hlength : handled.length = 3 := by
    have hqueue := congrArg List.length hd.queue
    rw [List.length_append, List.length_map, hleft] at hqueue
    exact (Nat.succ.inj hqueue).symm
  have hgrants : OwnGrants fourDescriptors.interface
      (RxCompletion.buffers fourDescriptors.engine.completed) handled := by
    intro before h after hhandled f hframe
    have hmem : f ∈ handled.filterMap (Handling.frame fourDescriptors.interface) := by
      rw [hhandled]
      exact List.mem_filterMap.mpr ⟨h, by simp, hframe⟩
    rw [← hd.frames, hoffers] at hmem
    obtain rfl : f = grantedFrame := by simpa using hmem
    rw [Interface.held_eq_nil rfl]
    have hbelow : ∀ a ∈ RxCompletion.buffers fourDescriptors.engine.completed,
        a.toNat + fourDescriptors.interface.receivedLength ≤
          (fourDescriptors.world.payloadAt 0).toNat := by
      decide
    refine ⟨fun a ha p hp => Or.inr ?_, fun g hg => absurd hg List.not_mem_nil⟩
    obtain rfl := Option.some.inj hp
    exact hbelow a ha
  exact ⟨handled, v, hv, hd, hlength, ⟨rfl, hgrants⟩, by rw [hoffers]; rfl⟩

end Driver

end XgmacDriver

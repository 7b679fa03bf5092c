import XgmacDriver.Proofs.ArenaStack
import XgmacDriver.Proofs.DrainOutline
import XgmacDriver.Proofs.Traffic

/-! # Zero-copy reception loses no buffer

The stack keeps its buffers in an arena. Posted buffers, those in completed descriptors, those that
were handed up in events and those that somebody else had before are then a partition of what is
not free. A drain swaps two buffers for each descriptor, and whatever happens in between, the
partition is still there when it ends.
-/

namespace XgmacDriver

variable {σ : Type}

/-- Where the buffers of `a` are that the stack has taken in the events among `es`. -/
def handedUp (a : Arena) (es : List Exchange) : List Addr :=
  (es.flatMap Exchange.delivered).map fun buffer => a.payloadAt buffer.index

theorem handedUp_append (a : Arena) (es es' : List Exchange) :
    handedUp a (es ++ es') = handedUp a es ++ handedUp a es' := by
  simp [handedUp]

def payloadsOf (a : Arena) (fs : List RxFrame) : List Addr :=
  fs.map fun f => a.payloadAt f.buffer.index

namespace Driver

/-- Every buffer of the arena has one owner. `completed` is the queue of the engine and `held` what
the driver has in its hands; the events are those since the exchange `n`, and `start` is the arena
before them. -/
structure ArenaLedger (arena : σ → Arena) (start : Arena) (n : Nat) (outside : List Addr)
    (completed : List RxCompletion) (held : List Addr) (m : Machine σ) : Prop where
  trace_le : n ≤ m.trace.size
  zeroCopy : m.interface.config.zeroCopyRx = true
  completed_eq : m.engine.completed = completed
  slots : start.SameSlots (arena m.world)
  partition : (arena m.world).Partition (m.engine.posted ++ RxCompletion.buffers completed ++
    handedUp start (m.since n) ++ held ++ outside)
  accepted : ∀ i accepted, Exchange.releaseBuffer i accepted ∈ m.since n → accepted = true

variable {c : Collaborators σ} {arena : σ → Arena} {start : Arena} {n : Nat}
  {outside : List Addr} {completed : List RxCompletion} {held : List Addr}

namespace ArenaLedger

variable {m m' : Machine σ}

/-- After one more exchange the buffers must be a partition again, for the queue and the buffers in
hand as they are then. -/
theorem exchange {completed' : List RxCompletion} {held' : List Addr} {x : Exchange}
    (h : ArenaLedger arena start n outside completed held m)
    (htrace : m'.trace = m.trace.push x) (hinterface : m'.interface = m.interface)
    (hcompleted : m'.engine.completed = completed')
    (hslots : (arena m.world).SameSlots (arena m'.world))
    (hpartition : (arena m'.world).Partition (m'.engine.posted ++ RxCompletion.buffers completed' ++
      (handedUp start (m.since n) ++ handedUp start [x]) ++ held' ++ outside))
    (haccepted : ∀ i accepted, x = .releaseBuffer i accepted → accepted = true) :
    ArenaLedger arena start n outside completed' held' m' := by
  have hsince := Machine.since_push h.trace_le htrace
  refine ⟨?_, ?_, hcompleted, h.slots.trans hslots, ?_, ?_⟩
  · rw [htrace, Array.size_push]
    exact Nat.le_succ_of_le h.trace_le
  · rw [hinterface]
    exact h.zeroCopy
  · rw [hsince, handedUp_append]
    exact hpartition
  · intro i accepted hmem
    rw [hsince, List.mem_append, List.mem_singleton] at hmem
    rcases hmem with hmem | hmem
    · exact h.accepted i accepted hmem
    · exact haccepted i accepted hmem.symm

theorem idle {x : Exchange} (h : ArenaLedger arena start n outside completed held m)
    (htrace : m'.trace = m.trace.push x) (hinterface : m'.interface = m.interface)
    (hengine : m'.engine = m.engine) (harena : arena m'.world = arena m.world)
    (hdelivered : x.delivered = []) (hreleased : x.released = []) :
    ArenaLedger arena start n outside completed held m' := by
  have hup : handedUp start [x] = [] := by simp [handedUp, hdelivered]
  refine h.exchange htrace hinterface (hengine ▸ h.completed_eq) (harena ▸ .refl _) ?_ ?_
  · rw [harena, hengine, hup, List.append_nil]
    exact h.partition
  · rintro i accepted rfl
    cases hreleased

theorem perm {held' : List Addr} (h : ArenaLedger arena start n outside completed held m)
    (hperm : held.Perm held') : ArenaLedger arena start n outside completed held' m :=
  { h with partition := h.partition.congr ((hperm.append_left _).append_right _) }

end ArenaLedger

theorem arenaLedger_report (entry : LogEntry) :
    Meets (ArenaLedger arena start n outside completed held) (report entry) fun _ =>
      ArenaLedger arena start n outside completed held :=
  fun _ hm => ⟨hm.trace_le, hm.zeroCopy, hm.completed_eq, hm.slots, hm.partition, hm.accepted⟩

section

variable (hstack : ArenaStack c arena)
include hstack

theorem arenaLedger_considerFrame (bytes : List UInt8) :
    Meets (ArenaLedger arena start n outside completed held) (considerFrame c bytes) fun _ =>
      ArenaLedger arena start n outside completed held :=
  meets_considerFrame fun _ _ _ hm hanswer =>
    hm.idle rfl rfl rfl (hstack.considerFrame hanswer) rfl rfl

theorem arenaLedger_matchEndpoint (bytes : List UInt8) :
    Meets (ArenaLedger arena start n outside completed held) (matchEndpoint c bytes) fun _ =>
      ArenaLedger arena start n outside completed held :=
  meets_matchEndpoint fun _ _ _ hm hanswer =>
    hm.idle rfl rfl rfl (hstack.matchEndpoint hanswer) rfl rfl

theorem arenaLedger_lookup {a : Addr} (ha : a ∈ held) :
    Meets (ArenaLedger arena start n outside completed held) (lookup c a) fun answer m =>
      ArenaLedger arena start n outside completed held m ∧
        ∃ owner, answer = some owner ∧ start.payloadAt owner.index = a := by
  refine meets_lookup fun m answer world hm hanswer => ?_
  obtain ⟨rfl, harena⟩ := hstack.lookup hanswer
  have howned : a ∈ m.engine.posted ++ RxCompletion.buffers completed ++
      handedUp start (m.since n) ++ held ++ outside := by simp [ha]
  obtain ⟨owner, howner, hpayload⟩ := hm.partition.lookup howned
  refine ⟨hm.idle rfl rfl rfl harena rfl rfl, owner, howner, ?_⟩
  rw [hm.slots.payloadAt_eq]
  exact hpayload

theorem arenaLedger_getBuffer (wanted block : Nat) :
    Meets (ArenaLedger arena start n outside completed held) (getBuffer c wanted block) fun
      | none => ArenaLedger arena start n outside completed held
      | some buffer => fun m =>
          ArenaLedger arena start n outside completed (start.payloadAt buffer.index :: held) m ∧
            ∀ fresh, buffer.payload = some fresh → fresh = start.payloadAt buffer.index := by
  refine meets_getBuffer fun m answer world hm hanswer => ?_
  cases answer with
  | none =>
      have harena : arena world = arena m.world := by
        rcases hstack.getBuffer_none hanswer with harena | htake
        · exact harena
        · exact Arena.take_eq_none hm.partition.wellFormed htake
      exact hm.idle rfl rfl rfl harena rfl rfl
  | some buffer =>
      obtain ⟨taken, htake, hindex, hpayload⟩ := hstack.getBuffer_some hanswer
      obtain ⟨hslots, hpartition, htaken⟩ := hm.partition.take wanted htake
      rw [← hm.slots.payloadAt_eq, ← hindex] at hpartition htaken
      refine ⟨hm.exchange rfl rfl hm.completed_eq hslots (hpartition.congr ?_) nofun, ?_⟩
      · rw [List.perm_iff_count]
        intro p
        simp only [handedUp, Exchange.delivered, List.flatMap_singleton, List.map_nil,
          List.append_nil, List.count_append, List.count_cons]
        omega
      · intro fresh hfresh
        rcases hpayload with hpayload | hpayload
        · simpa [htaken, hfresh] using hpayload
        · simp [hfresh] at hpayload

theorem arenaLedger_releaseBuffer (i : UInt16) :
    Meets (ArenaLedger arena start n outside completed (start.payloadAt i :: held))
      (releaseBuffer c i) fun _ => ArenaLedger arena start n outside completed held := by
  refine meets_releaseBuffer fun m accepted world hm hanswer => ?_
  have hpartition : (arena m.world).Partition ((arena m.world).payloadAt i ::
      (m.engine.posted ++ RxCompletion.buffers completed ++ handedUp start (m.since n) ++ held ++
        outside)) := by
    rw [← hm.slots.payloadAt_eq]
    refine hm.partition.congr ?_
    rw [List.perm_iff_count]
    intro p
    simp only [List.count_append, List.count_cons]
    omega
  obtain ⟨rest, hgive, hslots, hrest⟩ := hpartition.give
  obtain ⟨rfl, rfl⟩ := Prod.mk.inj ((hstack.releaseBuffer hanswer).symm.trans hgive)
  refine hm.exchange rfl rfl hm.completed_eq hslots ?_ ?_
  · simpa [handedUp, Exchange.delivered] using hrest
  · rintro _ _ ⟨⟩
    rfl

theorem arenaLedger_refill (a : Addr) :
    Meets (ArenaLedger arena start n outside completed (a :: held)) (command c (.refill a)) fun
      | .ok () => ArenaLedger arena start n outside completed held
      | .error _ => ArenaLedger arena start n outside completed (a :: held) := by
  refine meets_command (fun m world hm hanswer => ?_) fun m world status hm hanswer =>
    hm.idle rfl rfl rfl (hstack.command hanswer) rfl rfl
  have harena := hstack.command hanswer
  refine hm.exchange rfl rfl hm.completed_eq (harena ▸ .refl _) ?_ nofun
  rw [harena]
  refine hm.partition.congr ?_
  rw [List.perm_iff_count]
  intro p
  simp only [Engine.accept, handedUp, Exchange.delivered, List.flatMap_singleton, List.map_nil,
    List.append_nil, List.count_append, List.count_cons, List.count_nil]
  omega

theorem arenaLedger_sendRxEvent (fs gs : List RxFrame) :
    Meets (ArenaLedger arena start n outside completed (held ++ payloadsOf start (fs ++ gs)))
      (sendRxEvent c fs) fun taken => ArenaLedger arena start n outside completed
        (held ++ payloadsOf start (if taken then gs else fs ++ gs)) := by
  refine meets_sendRxEvent fun m taken world hm hanswer => ?_
  have harena := hstack.sendRxEvent hanswer
  cases taken with
  | false => exact hm.idle rfl rfl rfl harena rfl rfl
  | true =>
      refine hm.exchange rfl rfl hm.completed_eq (harena ▸ .refl _) ?_ nofun
      rw [harena]
      refine hm.partition.congr ?_
      rw [List.perm_iff_count]
      intro p
      simp only [handedUp, Exchange.delivered, payloadsOf, List.flatMap_singleton, List.map_map,
        List.map_append, Function.comp_def, Delivery.of, List.count_append, ite_true]
      omega

omit hstack in
theorem arenaLedger_nextReceived (rx : RxCompletion) :
    Meets (ArenaLedger arena start n outside (rx :: completed) held) nextReceived fun _ =>
      ArenaLedger arena start n outside completed (rx.buf.toList ++ held) := by
  refine meets_nextReceived fun m answer engine hm hanswer => ?_
  rw [Engine.nextCompleted, hm.completed_eq] at hanswer
  cases hanswer
  refine hm.exchange rfl rfl rfl (.refl _) (hm.partition.congr ?_) nofun
  rw [List.perm_iff_count]
  intro p
  cases hbuf : rx.buf <;>
    simp only [handedUp, Exchange.delivered, List.flatMap_singleton, List.map_nil,
      List.append_nil, RxCompletion.buffers, List.filterMap_cons, hbuf, Option.toList,
      List.count_append, List.count_cons, List.count_nil] <;> omega

omit hstack in
theorem arenaLedger_nextReceived_nil :
    Meets (ArenaLedger arena start n outside [] held) nextReceived fun _ =>
      ArenaLedger arena start n outside [] held := by
  refine meets_nextReceived fun m answer engine hm hanswer => ?_
  rw [Engine.nextCompleted, hm.completed_eq] at hanswer
  cases hanswer
  exact hm.idle rfl rfl rfl rfl rfl rfl

end

def zeroCopyOutline (arena : σ → Arena) (start : Arena) (n : Nat) (outside : List Addr) :
    DrainOutline σ where
  ready completed fs := ArenaLedger arena start n outside completed (payloadsOf start fs)
  holding rest a fs := ArenaLedger arena start n outside rest (a :: payloadsOf start fs)
  replacing rest a replacement fs m :=
    ArenaLedger arena start n outside rest
        (start.payloadAt replacement.index :: a :: payloadsOf start fs) m ∧
      ∀ fresh, replacement.payload = some fresh → fresh = start.payloadAt replacement.index
  refused rest a fs := ArenaLedger arena start n outside rest (a :: payloadsOf start fs)
  ended fs m := ∃ rest, ArenaLedger arena start n outside rest (payloadsOf start fs) m

section

variable (hstack : ArenaStack c arena)
include hstack

/-- The owner of the received buffer goes up, and the fresh buffer takes its place. -/
theorem arenaLedger_forwardFrame (a : Addr) (length : Nat) (replacement : NetworkBuffer)
    (fs : List RxFrame) :
    Meets (ArenaLedger arena start n outside completed
        (start.payloadAt replacement.index :: a :: payloadsOf start fs))
      (forwardFrame c a length replacement (start.payloadAt replacement.index))
      ((zeroCopyOutline arena start n outside).received completed fs) := by
  refine meets_forwardFrame (D := fun _ => False)
    (G := fun owner refill => ArenaLedger arena start n outside completed
      (refill :: start.payloadAt owner.index :: payloadsOf start fs))
    (((arenaLedger_lookup hstack (by simp)).pre fun _ hm => hm.1).post ?_) (fun _ hm => hm)
    (fun _ hm => hm.elim) (fun m hm => ?_) fun owner refill bytes =>
      arenaLedger_matchEndpoint hstack bytes
  · -- The received buffer is in hand, so the arena knows its owner.
    rintro (_ | owner) m ⟨hm, _, ⟨⟩, rfl⟩
    exact hm
  · exact absurd (hm.2.symm.trans hm.1.zeroCopy) Bool.false_ne_true

theorem arenaLedger_recycle (a : Addr) :
    Meets (ArenaLedger arena start n outside completed (a :: held)) (recycle c a) fun _ =>
      ArenaLedger arena start n outside completed held := by
  refine meets_recycle (S := fun _ _ => False)
    ((arenaLedger_lookup hstack List.mem_cons_self).pre fun _ hm => hm.1) (fun owner => ?_) ?_
    (fun m hm => ?_) (fun _ hm => hm.elim) fun _ _ hm => hm.elim
  · refine (arenaLedger_releaseBuffer hstack owner.index).pre ?_
    rintro m ⟨hm, _, ⟨⟩, rfl⟩
    exact hm
  · rintro m ⟨-, _, ⟨⟩, -⟩
  · exact absurd (hm.2.symm.trans hm.1.zeroCopy) Bool.false_ne_true

theorem zeroCopyOutline_frames (rest : List RxCompletion) (held : List Addr) :
    FrameAccount c fun fs =>
      ArenaLedger arena start n outside rest (held ++ payloadsOf start fs) where
  perm hperm hm := hm.perm ((hperm.map _).append_left _)
  report entry fs := arenaLedger_report entry
  send fs gs := arenaLedger_sendRxEvent hstack fs gs
  release f fs := by
    refine (arenaLedger_releaseBuffer hstack f.buffer.index).pre fun m hm => ?_
    exact hm.perm List.perm_middle

theorem zeroCopyOutline_sound : (zeroCopyOutline arena start n outside).Sound c where
  holding_frames rest a := zeroCopyOutline_frames hstack rest [a]
  ended_frames := FrameAccount.exists_index fun rest => zeroCopyOutline_frames hstack rest []
  next_empty fs := arenaLedger_nextReceived_nil.post fun _ _ hm => ⟨[], hm⟩
  next_bufferless rx rest fs hbuf := by
    refine (arenaLedger_nextReceived rx).post fun _ _ hm => ⟨rest, ?_⟩
    simpa [hbuf] using hm
  next rx rest a fs hbuf := by
    refine (arenaLedger_nextReceived rx).post fun _ _ hm => ?_
    simpa [hbuf, zeroCopyOutline] using hm
  consider _ _ _ bytes := arenaLedger_considerFrame hstack bytes
  obtain_buffer _ _ _ := by
    refine (arenaLedger_getBuffer hstack maxPacketSize 0).post ?_
    rintro (_ | replacement) m hm
    · exact hm
    · exact hm
  release_replacement _ _ replacement _ :=
    (arenaLedger_releaseBuffer hstack replacement.index).pre fun _ hm => hm.1
  forward rest a replacement fresh fs length hpayload := by
    intro m hm
    obtain rfl := hm.2 fresh hpayload
    exact arenaLedger_forwardFrame hstack a length replacement fs m hm.1
  refill _ a _ := by
    refine (arenaLedger_refill hstack a).post ?_
    rintro (status | ⟨⟩) m hm
    · exact hm
    · exact hm
  refused_report _ _ _ entry := arenaLedger_report entry
  recycle rest a fs := (arenaLedger_recycle hstack a).post fun _ _ hm => ⟨rest, hm⟩

/-- A drain over an arena ends with every buffer in the hands of exactly one owner, as it began. The
owners are the free list, the engine's posted buffers, the completed descriptors, the events that
the stack has taken and whoever had buffers before. -/
theorem processReceived_partition {m m' : Machine σ} {es : List Exchange} {outside : List Addr}
    (hzero : m.interface.config.zeroCopyRx = true)
    (hpartition : (arena m.world).Partition
      (m.engine.posted ++ RxCompletion.buffers m.engine.completed ++ outside))
    (hm' : m' = ((processReceived c).run m).2) (hes : es = m'.since m.trace.size) :
    (arena m.world).SameSlots (arena m'.world) ∧
      (arena m'.world).Partition (m'.engine.posted ++ RxCompletion.buffers m'.engine.completed ++
        handedUp (arena m.world) es ++ outside) ∧
      (∀ i accepted, .releaseBuffer i accepted ∈ es → accepted = true) ∧
      m'.engine.posted.Disjoint (handedUp (arena m.world) es) := by
  have hledger :
      ArenaLedger arena (arena m.world) m.trace.size outside m.engine.completed [] m := by
    refine ⟨Nat.le_refl _, hzero, rfl, .refl _, ?_, ?_⟩
    · simpa [Machine.since_size, handedUp] using hpartition
    · simp [Machine.since_size]
  obtain ⟨completed, hend⟩ : ∃ completed,
      ArenaLedger arena (arena m.world) m.trace.size outside completed [] m' := by
    by_cases hopen : m.interface.engineOpen = true
    · have hready : (zeroCopyOutline arena (arena m.world) m.trace.size outside).ready
          m.engine.completed [] m := hledger
      rw [hm']
      exact (zeroCopyOutline_sound hstack).processReceived m hopen hready
    · have hrun : (processReceived c).run m = pure (0, m) := by
        simp [processReceived, hopen]
      rw [hm', hrun]
      exact ⟨_, hledger⟩
  have hend' := hend.partition
  rw [← hes, ← hend.completed_eq, List.append_nil] at hend'
  refine ⟨hend.slots, hend', hes ▸ hend.accepted, ?_⟩
  have hnodup := (List.nodup_append.mp (List.nodup_append.mp hend'.nodup).2.1).1
  rw [List.append_assoc, List.nodup_append] at hnodup
  intro p hposted hup
  exact hnodup.2.2 p hposted p (List.mem_append_right _ hup) rfl

end

def oneFrameMachine : Machine Arena where
  interface := { index := 0, config := .zeroCopy, engineOpen := true }
  engine := {
    posted := [regionStart.add bufferPadding]
    completed := [{
      buf := some (regionStart.add (2048 + bufferPadding))
      size := 60
      status := 0 }] }
  clock := .startingAt 0 0
  memory := .zeroed
  trace := #[]
  log := #[]
  world := (((Arena.ofRegion regionStart 4 2048).take 1536).2.take 1536).2

theorem processReceived_partition_one_frame :
    let m := ((processReceived (.ofArena (.ok ()) true)).run oneFrameMachine).2
    m.world.Partition (m.engine.posted ++ RxCompletion.buffers m.engine.completed ++
      handedUp oneFrameMachine.world (m.since 0) ++ []) := by
  have hfresh : (Arena.ofRegion regionStart 4 2048).Partition [] :=
    Arena.partition_ofRegion rfl
  have hone := (hfresh.take 1536 rfl).2.1
  have htwo : oneFrameMachine.world.Partition _ := (hone.take 1536 rfl).2.1
  have howned : oneFrameMachine.world.Partition (oneFrameMachine.engine.posted ++
      RxCompletion.buffers oneFrameMachine.engine.completed ++ []) := htwo.congr (by decide)
  exact (processReceived_partition (arenaStack_ofArena _ _) rfl howned rfl rfl).2.1

end Driver

end XgmacDriver

import XgmacDriver.Proofs.DrainRecord
import XgmacDriver.Proofs.PoolCustody
import XgmacDriver.Proofs.Triple

/-! # The parts of a drain

What each part of a drain asks, offers and changes, seen from the machine on which the drain began.
Up to its refill a descriptor is dealt with by `receiveFrame`, which leaves a `Handling` with a
result that agrees with it.
-/

namespace XgmacDriver

variable {σ : Type}

/-- What a drain has to do with, and what it has asked and offered so far. -/
structure DrainView where
  interface : Interface
  completed : List RxCompletion
  memory : Memory
  inquiries : List Exchange
  offers : List Delivery

namespace DrainView

variable (v : DrainView)

def asked (xs : List Exchange) : DrainView := { v with inquiries := v.inquiries ++ xs }

def offer (frames : List RxFrame) : DrainView :=
  { v with offers := v.offers ++ frames.map (Delivery.of v.memory) }

def opened (rx : RxCompletion) (rest : List RxCompletion) : DrainView :=
  { v.asked [.nextReceived (some rx)] with completed := rest }

/-- The frame in `buf` has been dealt with, up to its delivery. -/
def judged (h : Handling) (buf : Addr) : DrainView :=
  { v.asked (h.questions v.interface buf) with memory := h.copied v.interface v.memory }

@[simp] theorem asked_nil : v.asked [] = v := by simp [asked]

@[simp] theorem asked_asked (xs ys : List Exchange) :
    (v.asked xs).asked ys = v.asked (xs ++ ys) := by simp [asked]

@[simp] theorem interface_asked (xs : List Exchange) : (v.asked xs).interface = v.interface := rfl

@[simp] theorem memory_asked (xs : List Exchange) : (v.asked xs).memory = v.memory := rfl

@[simp] theorem offer_nil : v.offer [] = v := by simp [offer]

end DrainView

/-- The drain began after `n` exchanges. -/
structure OnDrain (n : Nat) (v : DrainView) (m : Machine σ) : Prop where
  trace_le : n ≤ m.trace.size
  interface : m.interface = v.interface
  completed : m.engine.completed = v.completed
  memory : m.memory = v.memory
  inquiries : (m.since n).filter Exchange.isInquiry = v.inquiries
  offers : (m.since n).flatMap Exchange.offered = v.offers

def Machine.drainView (n : Nat) (m : Machine σ) : DrainView where
  interface := m.interface
  completed := m.engine.completed
  memory := m.memory
  inquiries := (m.since n).filter Exchange.isInquiry
  offers := (m.since n).flatMap Exchange.offered

namespace OnDrain

variable {n : Nat} {v : DrainView} {m m' : Machine σ}

theorem drainView_eq (h : OnDrain n v m) : m.drainView n = v := by
  rw [Machine.drainView, h.interface, h.completed, h.memory, h.inquiries, h.offers]

theorem start (m : Machine σ) :
    OnDrain m.trace.size ⟨m.interface, m.engine.completed, m.memory, [], []⟩ m :=
  ⟨Nat.le_refl _, rfl, rfl, rfl, by rw [m.since_size]; rfl, by rw [m.since_size]; rfl⟩

/-- After a step that records nothing. -/
theorem aside (h : OnDrain n v m) (htrace : m'.trace = m.trace) (hengine : m'.engine = m.engine) :
    OnDrain n { v with interface := m'.interface, memory := m'.memory } m' := by
  have hsince : m'.since n = m.since n := by rw [Machine.since, htrace, Machine.since]
  exact ⟨htrace ▸ h.trace_le, rfl, hengine ▸ h.completed, rfl, hsince ▸ h.inquiries,
    hsince ▸ h.offers⟩

theorem exchange {x : Exchange} {completed : List RxCompletion} {inquiries : List Exchange}
    {offers : List Delivery} (h : OnDrain n v m) (htrace : m'.trace = m.trace.push x)
    (hinterface : m'.interface = m.interface) (hmemory : m'.memory = m.memory)
    (hcompleted : m'.engine.completed = completed)
    (hinquiries : v.inquiries ++ [x].filter Exchange.isInquiry = inquiries)
    (hoffers : v.offers ++ x.offered = offers) :
    OnDrain n { v with completed, inquiries, offers } m' := by
  have hsince := Machine.since_push h.trace_le htrace
  refine ⟨?_, hinterface.trans h.interface, hcompleted, hmemory.trans h.memory, ?_, ?_⟩
  · rw [htrace, Array.size_push]
    exact Nat.le_succ_of_le h.trace_le
  · rw [hsince, List.filter_append, h.inquiries, hinquiries]
  · rw [hsince, List.flatMap_append, h.offers, List.flatMap_singleton, hoffers]

theorem inquiry {x : Exchange} {completed : List RxCompletion} (h : OnDrain n v m)
    (hx : x.isInquiry = true) (htrace : m'.trace = m.trace.push x)
    (hinterface : m'.interface = m.interface) (hmemory : m'.memory = m.memory)
    (hcompleted : m'.engine.completed = completed) :
    OnDrain n { v.asked [x] with completed } m' := by
  apply h.exchange htrace hinterface hmemory hcompleted
  · rw [List.filter_cons_of_pos hx, List.filter_nil]
    rfl
  · rw [Exchange.offered_of_isInquiry hx, List.append_nil]
    rfl

end OnDrain

namespace Driver

variable {c : Collaborators σ} {n : Nat} {v : DrainView}

/-! ## Single steps -/

theorem drained_interface : Meets (OnDrain n v) (interface : Driver σ _) fun i m =>
    i = v.interface ∧ OnDrain n v m :=
  fun _ hm => ⟨hm.interface, hm⟩

theorem drained_config : Meets (OnDrain n v) (config : Driver σ _) fun config m =>
    config = v.interface.config ∧ OnDrain n v m :=
  fun _ hm => ⟨congrArg Interface.config hm.interface, hm⟩

theorem drained_readMemory (a : Addr) (k : Nat) :
    Meets (OnDrain n v) (readMemory a k : Driver σ _) fun bytes m =>
      bytes = v.memory.read a k ∧ OnDrain n v m :=
  fun _ hm => ⟨congrArg (Memory.read · a k) hm.memory, hm⟩

theorem drained_report (entry : LogEntry) :
    Meets (OnDrain n v) (report entry : Driver σ Unit) fun _ => OnDrain n v := by
  intro m hm
  exact { hm with }

theorem drained_nextReceived {answer : Option RxCompletion} {rest : List RxCompletion}
    (hanswer : ∀ e : Engine, e.completed = v.completed →
      e.nextCompleted.1 = answer ∧ e.nextCompleted.2.completed = rest) :
    Meets (OnDrain n v) (nextReceived : Driver σ _) fun _ =>
      OnDrain n { v.asked [.nextReceived answer] with completed := rest } := by
  apply meets_nextReceived
  intro m answer engine hm hnext
  obtain ⟨rfl, hrest⟩ := hanswer _ hm.completed
  rw [hnext] at hrest ⊢
  exact hm.inquiry rfl rfl rfl rfl hrest

theorem drained_getBuffer (wanted block : Nat) : Meets (OnDrain n v) (getBuffer c wanted block)
    fun answer => OnDrain n (v.asked [.getBuffer wanted block answer]) := by
  apply meets_getBuffer
  intro m answer world hm _
  exact hm.inquiry rfl rfl rfl rfl hm.completed

theorem drained_considerFrame (bytes : List UInt8) : Meets (OnDrain n v) (considerFrame c bytes)
    fun verdict m => (∃ w, (c.considerFrame bytes w).1 = verdict) ∧
      OnDrain n (v.asked [.considerFrame bytes verdict]) m := by
  apply meets_considerFrame
  intro m verdict world hm hanswer
  exact ⟨⟨m.world, congrArg Prod.fst hanswer⟩, hm.inquiry rfl rfl rfl rfl hm.completed⟩

theorem drained_matchEndpoint (bytes : List UInt8) : Meets (OnDrain n v) (matchEndpoint c bytes)
    fun answer => OnDrain n (v.asked [.matchEndpoint v.interface.index bytes answer]) := by
  apply meets_matchEndpoint
  intro m answer world hm _
  rw [← hm.interface]
  exact hm.inquiry rfl rfl rfl rfl hm.completed

theorem drained_lookup (a : Addr) : Meets (OnDrain n v) (lookup c a) fun answer =>
    OnDrain n (v.asked [.lookup a answer]) := by
  apply meets_lookup
  intro m answer world hm _
  exact hm.inquiry rfl rfl rfl rfl hm.completed

theorem drained_refill (a : Addr) : Meets (OnDrain n v) (command c (.refill a)) fun answer =>
    OnDrain n (v.asked [.command (.refill a) answer]) := by
  apply meets_command
  · intro m world hm _
    exact hm.inquiry rfl rfl rfl rfl hm.completed
  · intro m world status hm _
    exact hm.inquiry rfl rfl rfl rfl hm.completed

theorem drained_releaseBuffer (i : UInt16) : Meets (OnDrain n v) (releaseBuffer c i) fun _ =>
    OnDrain n v := by
  apply meets_releaseBuffer
  intro m accepted world hm _
  exact hm.exchange rfl rfl rfl hm.completed (List.append_nil _) (List.append_nil _)

theorem drained_copyMemory (src dst : Addr) (k : Nat) : Meets (OnDrain n v) (copyMemory src dst k)
    fun _ => OnDrain (σ := σ) n { v with memory := v.memory.copy src dst k } := by
  intro m hm
  rw [run_copyMemory, ← hm.memory]
  exact { hm with memory := rfl }

theorem drained_sendRxEvent (fs : List RxFrame) : Meets (OnDrain n v) (sendRxEvent c fs) fun _ =>
    OnDrain n (v.offer fs) := by
  apply meets_sendRxEvent
  intro m taken world hm _
  have hoffers : v.offers ++ fs.map (Delivery.of m.memory) = (v.offer fs).offers := by
    rw [hm.memory]
    rfl
  exact hm.exchange rfl rfl rfl hm.completed (List.append_nil _) hoffers

/-! ## The parts of a drain -/

theorem drained_passToStack (fs : List RxFrame) : Meets (OnDrain n v) (passToStack c fs) fun _ =>
    OnDrain n (v.offer fs) := by
  unfold passToStack
  apply Meets.ite
  · intro hempty
    obtain rfl := List.isEmpty_iff.mp hempty
    rw [v.offer_nil]
    exact meets_pure fun _ hm => hm
  · intro _
    refine (drained_sendRxEvent fs).bind fun taken => Meets.ite (fun _ => ?_) fun _ => ?_
    · exact meets_pure fun _ hm => hm
    · refine (drained_report _).bind fun _ => ?_
      refine Meets.bind ?_ fun _ => meets_pure fun _ hm => hm
      exact Meets.forM (I := fun _ => OnDrain n (v.offer fs))
        (fun f _ => drained_releaseBuffer f.buffer.index) fs

/-- Without batching nothing is held back, and with it the batch goes up when it is full. -/
theorem drained_deliver {batch : List RxFrame}
    (hbatch : v.interface.config.linkedRx = false → batch = []) (frame : RxFrame) :
    Meets (OnDrain n v) (deliver c batch frame) fun r m =>
      r.1 = v.interface.heldBack batch frame ∧
        ∃ sent, sent ++ r.1 = batch ++ [frame] ∧ OnDrain n (v.offer sent) m := by
  unfold deliver Interface.heldBack
  refine drained_config.bind fun config => Meets.given ?_
  rintro rfl
  apply Meets.ite
  · intro hlinked
    rw [if_pos hlinked, hbatch (by simpa using hlinked)]
    refine (drained_passToStack [frame]).bind fun _ => meets_pure fun _ hm => ?_
    exact ⟨rfl, [frame], rfl, hm⟩
  · intro hlinked
    rw [if_neg hlinked]
    apply Meets.ite
    · intro hroom
      rw [if_pos hroom]
      refine meets_pure fun _ hm => ⟨rfl, [], rfl, ?_⟩
      rwa [v.offer_nil]
    · intro hroom
      rw [if_neg hroom]
      refine (drained_passToStack batch).bind fun _ => meets_pure fun _ hm => ?_
      exact ⟨rfl, batch, rfl, hm⟩

theorem drained_isFiltered (bytes : List UInt8) : Meets (OnDrain n v) (isFiltered c bytes)
    fun filtered m => ∃ verdict,
      filtered = (v.interface.config.filterFrames && verdict = .release) ∧
      (v.interface.config.filterFrames = true → ∃ w, (c.considerFrame bytes w).1 = verdict) ∧
      OnDrain n (v.asked (if v.interface.config.filterFrames then [.considerFrame bytes verdict]
        else [])) m := by
  unfold isFiltered
  refine drained_config.bind fun config => Meets.given ?_
  rintro rfl
  apply Meets.ite
  · intro hfilter
    refine (drained_considerFrame bytes).bind fun verdict => meets_pure ?_
    rintro m ⟨hverdict, hm⟩
    exact ⟨verdict, by simp [hfilter], fun _ => hverdict, by rwa [if_pos hfilter]⟩
  · intro hfilter
    refine meets_pure fun m hm => ⟨.process, by simp [hfilter], fun h => absurd h hfilter, ?_⟩
    rwa [if_neg hfilter, v.asked_nil]

theorem drained_finish (buf : Addr) (length : Nat) (buffer : NetworkBuffer) (refill : Addr) :
    Meets (OnDrain n v) (do
      let endpoint ← matchEndpoint c (← readMemory buf length)
      let buffer := { buffer with length := min length buffer.capacity - ethernetCrcLength }
      return Received.forward { buffer, interface := (← interface).index, endpoint } refill)
      fun result m => ∃ endpoint, result = .forward {
          buffer := { buffer with length := min length buffer.capacity - ethernetCrcLength }
          interface := v.interface.index
          endpoint } refill ∧
        OnDrain n (v.asked [.matchEndpoint v.interface.index (v.memory.read buf length) endpoint])
          m := by
  refine (drained_readMemory buf length).bind fun bytes => Meets.given ?_
  rintro rfl
  refine (drained_matchEndpoint _).bind fun endpoint => ?_
  refine drained_interface.bind fun i => meets_pure ?_
  rintro m ⟨rfl, hm⟩
  exact ⟨endpoint, rfl, hm⟩

theorem drained_forwardFrame {h : Handling} {buf fresh : Addr} {replacement : NetworkBuffer}
    (hbuf : h.rx.buf = some buf) (hadmitted : h.admitted v.interface = true)
    (hgrant : h.grant = some replacement) (hpayload : replacement.payload = some fresh) :
    Meets (OnDrain n v) (forwardFrame c buf h.length replacement fresh) fun result m =>
      ∃ owner seen endpoint, result = (h.placed owner seen endpoint).result v.interface buf ∧
        OnDrain n { v.asked ((h.placed owner seen endpoint).handover v.interface buf) with
          memory := (h.placed owner seen endpoint).copied v.interface v.memory } m := by
  have hfresh : ∀ owner seen endpoint,
      (h.placed owner seen endpoint).fresh v.interface = some fresh := by
    intro owner seen endpoint
    exact Handling.fresh_eq_some_iff.mpr ⟨hadmitted, replacement, hgrant, hpayload⟩
  unfold forwardFrame
  refine drained_config.bind fun config => Meets.given ?_
  rintro rfl
  apply Meets.ite
  · intro hzero
    have hdelivered : ∀ owner seen endpoint,
        (h.placed owner seen endpoint).delivered v.interface = owner := by
      intro owner seen endpoint
      rw [Handling.delivered, hfresh, if_pos hzero]
      rfl
    refine (drained_lookup buf).bind ?_
    rintro (_ | owner)
    · refine (drained_report _).bind fun _ => ?_
      refine (drained_releaseBuffer _).bind fun _ => meets_pure fun m hm => ?_
      refine ⟨none, [], none, (Handling.result_of_delivered_eq_none (hdelivered ..)).symm, ?_⟩
      rw [Handling.handover, if_pos hzero, hdelivered, Handling.copied_of_zeroCopyRx hzero]
      exact hm
    · refine (drained_finish buf h.length owner fresh).post ?_
      rintro _ m ⟨endpoint, rfl, hm⟩
      refine ⟨some owner, v.memory.read buf h.length, endpoint, ?_, ?_⟩
      · rw [Handling.result_of_delivered_eq_some (h := h.placed (some owner) _ endpoint) hbuf
          (hfresh ..) (hdelivered ..), if_pos hzero]
        rfl
      · rw [Handling.handover, if_pos hzero, hdelivered, Handling.copied_of_zeroCopyRx hzero]
        rwa [DrainView.asked_asked] at hm
  · intro hzero
    have hcopying : v.interface.config.zeroCopyRx = false := by simpa using hzero
    have hdelivered : ∀ owner seen endpoint,
        (h.placed owner seen endpoint).delivered v.interface = some replacement := by
      intro owner seen endpoint
      rw [Handling.delivered, hfresh, if_neg hzero]
      exact hgrant
    refine (drained_copyMemory buf fresh _).bind fun _ => ?_
    refine (drained_finish buf h.length replacement buf).post ?_
    rintro _ m ⟨endpoint, rfl, hm⟩
    refine ⟨none, (v.memory.copy buf fresh (min h.length replacement.capacity)).read buf h.length,
      endpoint, ?_, ?_⟩
    · rw [Handling.result_of_delivered_eq_some (h := h.placed none _ endpoint) hbuf (hfresh ..)
        (hdelivered ..), if_neg hzero]
      rfl
    · have hcopied := fun seen =>
        (h.placed none seen endpoint).copied_eq_copy v.memory hcopying hbuf (hfresh ..) hgrant
      rw [Handling.handover, if_neg hzero, hdelivered, hcopied]
      exact hm

/-- `h` is what became of the descriptor `rx`, up to its refill. -/
structure Judged (c : Collaborators σ) (v : DrainView) (rx : RxCompletion) (buf : Addr)
    (result : Received) (h : Handling) : Prop where
  rx_eq : h.rx = rx
  bytes_eq : h.bytes = v.memory.read buf h.length
  considered : h.screened v.interface = true → ∃ w, (c.considerFrame h.bytes w).1 = h.verdict
  result_eq : result = h.result v.interface buf

theorem judged_drop {rx : RxCompletion} {buf : Addr} {h : Handling} {m : Machine σ}
    (hrx : h.rx = rx) (hbytes : h.bytes = v.memory.read buf h.length)
    (hconsidered : h.screened v.interface = true → ∃ w, (c.considerFrame h.bytes w).1 = h.verdict)
    (hfresh : h.fresh v.interface = none) (hm : OnDrain n (v.asked (h.requests v.interface)) m) :
    ∃ h, Judged c v rx buf (.drop buf) h ∧ OnDrain n (v.judged h buf) m := by
  have hdelivered : h.delivered v.interface = none := by simp [Handling.delivered, hfresh]
  have hcopied : h.copied v.interface v.memory = v.memory := by simp [Handling.copied, hfresh]
  refine ⟨h, ⟨hrx, hbytes, hconsidered, ?_⟩, ?_⟩
  · exact (Handling.result_of_delivered_eq_none hdelivered).symm
  · rw [DrainView.judged, Handling.questions, hfresh, hcopied, Option.isSome_none,
      if_neg Bool.false_ne_true, List.append_nil]
    exact hm

theorem drained_admitted {h : Handling} {buf : Addr} (hbuf : h.rx.buf = some buf)
    (hbytes : h.bytes = v.memory.read buf h.length)
    (hconsidered : h.screened v.interface = true → ∃ w, (c.considerFrame h.bytes w).1 = h.verdict)
    (hadmitted : h.admitted v.interface = true) :
    Meets (OnDrain n (v.asked
        (if h.screened v.interface then [.considerFrame h.bytes h.verdict] else []))) (do
      match ← getBuffer c maxPacketSize 0 with
      | none =>
          report .noBufferForFrame
          return .drop buf
      | some replacement =>
          match replacement.payload with
          | none =>
              releaseBuffer c replacement.index
              return .drop buf
          | some fresh => forwardFrame c buf h.length replacement fresh) fun result m =>
      ∃ h', Judged c v h.rx buf result h' ∧ OnDrain n (v.judged h' buf) m := by
  have hrequests : ∀ grant, (h.granted grant).requests v.interface =
      (if h.screened v.interface then [.considerFrame h.bytes h.verdict] else []) ++
        [.getBuffer maxPacketSize 0 grant] := by
    intro grant
    have hadmitted : (h.granted grant).admitted v.interface = true := hadmitted
    rw [Handling.requests, if_pos hadmitted]
    rfl
  refine (drained_getBuffer maxPacketSize 0).bind fun grant => ?_
  rw [v.asked_asked, ← hrequests grant]
  cases grant with
  | none =>
      refine (drained_report _).bind fun _ => meets_pure fun m hm => ?_
      exact judged_drop (h := h.granted none) rfl hbytes hconsidered (Handling.fresh_eq_none rfl) hm
  | some replacement =>
      dsimp only
      cases hpayload : replacement.payload with
      | none =>
          refine (drained_releaseBuffer _).bind fun _ => meets_pure fun m hm => ?_
          exact judged_drop (h := h.granted (some replacement)) rfl hbytes hconsidered
            (Handling.fresh_eq_none hpayload) hm
      | some fresh =>
          have hhandover := drained_forwardFrame (c := c) (n := n)
            (v := v.asked ((h.granted (some replacement)).requests v.interface))
            (h := h.granted (some replacement)) hbuf hadmitted rfl hpayload
          refine hhandover.post ?_
          rintro _ m ⟨owner, seen, endpoint, rfl, hm⟩
          refine ⟨(h.granted (some replacement)).placed owner seen endpoint,
            ⟨rfl, hbytes, hconsidered, rfl⟩, ?_⟩
          have hfresh : ((h.granted (some replacement)).placed owner seen endpoint).fresh
              v.interface = some fresh :=
            Handling.fresh_eq_some_iff.mpr ⟨hadmitted, replacement, rfl, hpayload⟩
          rw [DrainView.asked_asked] at hm
          rw [DrainView.judged, Handling.questions, hfresh, Option.isSome_some, if_pos rfl]
          exact hm

theorem drained_receiveFrame {rx : RxCompletion} {buf : Addr} (hbuf : rx.buf = some buf) :
    Meets (OnDrain n v) (receiveFrame c rx buf) fun result m => ∃ h, Judged c v rx buf result h ∧
      OnDrain n (v.judged h buf) m := by
  unfold receiveFrame
  apply Meets.ite
  · intro herror
    refine (drained_report _).bind fun _ => meets_pure fun m hm => ?_
    apply judged_drop (h := .ofVerdict rx (v.memory.read buf (min rx.size maxPacketSize)) .process)
      rfl rfl
    · simp [Handling.ofVerdict, Handling.screened, herror]
    · exact Handling.fresh_eq_none rfl
    · simpa [Handling.ofVerdict, Handling.requests, Handling.screened, Handling.admitted, herror]
        using hm
  · intro herror
    rw [Bool.not_eq_true] at herror
    refine (drained_readMemory buf _).bind fun bytes => Meets.given fun hbytes => ?_
    refine (drained_isFiltered bytes).bind fun filtered => Meets.any fun verdict => Meets.given ?_
    rintro rfl
    refine Meets.given fun hconsidered => ?_
    have hscreened : (Handling.ofVerdict rx bytes verdict).screened v.interface =
        v.interface.config.filterFrames := by
      simp [Handling.ofVerdict, Handling.screened, herror]
    rw [← hscreened] at hconsidered
    apply Meets.ite
    · intro hfiltered
      obtain ⟨hfilter, rfl⟩ : v.interface.config.filterFrames = true ∧ verdict = .release := by
        simpa using hfiltered
      refine meets_pure fun m hm => ?_
      apply judged_drop (h := .ofVerdict rx bytes .release) rfl hbytes hconsidered
        (Handling.fresh_eq_none rfl)
      have hadmitted : (Handling.ofVerdict rx bytes .release).admitted v.interface = false := by
        simp [Handling.ofVerdict, Handling.admitted, hfilter]
      rw [Handling.requests, hscreened, hadmitted, if_neg Bool.false_ne_true, List.append_nil]
      exact hm
    · intro hfiltered
      have hadmitted : (Handling.ofVerdict rx bytes verdict).admitted v.interface = true := by
        refine Handling.admitted_iff.mpr ⟨herror, fun hfilter => ?_⟩
        cases verdict with
        | process => rfl
        | release => simp [hfilter] at hfiltered
      rw [← hscreened]
      exact drained_admitted hbuf hbytes hconsidered hadmitted

theorem drained_recycle (a : Addr) : Meets (OnDrain n v) (recycle c a) fun _ m =>
    ∃ recycled interface memory,
      (memory = v.memory ∨ v.interface.config.zeroCopyRx = false ∧
        memory = v.memory.fill a v.interface.rxPool.slotSize 0) ∧
      OnDrain n { v.asked (if v.interface.config.zeroCopyRx then [.lookup a recycled] else []) with
        interface, memory } m := by
  unfold recycle
  refine drained_config.bind fun config => Meets.given ?_
  rintro rfl
  apply Meets.ite
  · intro hzero
    refine (drained_lookup a).bind fun recycled => ?_
    have hend : ∀ m, OnDrain (σ := σ) n (v.asked [.lookup a recycled]) m →
        ∃ recycled interface memory,
          (memory = v.memory ∨ v.interface.config.zeroCopyRx = false ∧
            memory = v.memory.fill a v.interface.rxPool.slotSize 0) ∧
          OnDrain n { v.asked (if v.interface.config.zeroCopyRx then [.lookup a recycled] else [])
            with interface, memory } m := by
      intro m hm
      refine ⟨recycled, v.interface, v.memory, Or.inl rfl, ?_⟩
      rw [if_pos hzero]
      exact hm
    cases recycled with
    | none => exact (drained_report _).post fun _ => hend
    | some buffer => exact (drained_releaseBuffer _).post fun _ => hend
  · intro hzero
    simp only [if_neg hzero, DrainView.asked_nil]
    have hrelease : Meets (OnDrain n v) (releaseSlot c .rx a) fun _ m => ∃ interface memory,
        (memory = v.memory ∨ v.interface.config.zeroCopyRx = false ∧
          memory = v.memory.fill a v.interface.rxPool.slotSize 0) ∧
        OnDrain n { v with interface, memory } m := by
      apply meets_onPool
      rintro m _ hm rfl
      refine ⟨_, _, ?_, hm.aside rfl rfl⟩
      rw [← hm.memory, ← hm.interface]
      obtain ⟨-, -, hmemory⟩ | ⟨-, -, hmemory, -⟩ :=
        (m.interface.pool .rx).release_cases a (c.lock .rx m.world) m.clock m.memory
      · exact Or.inl hmemory
      · rw [hm.interface] at hmemory ⊢
        exact Or.inr ⟨by simpa using hzero, hmemory⟩
    refine hrelease.bind fun answer => ?_
    cases answer with
    | ok => exact meets_pure fun m ⟨i, memory, hmemory, hm⟩ => ⟨none, i, memory, hmemory, hm⟩
    | error e =>
        rintro m ⟨i, memory, hmemory, hm⟩
        exact ⟨none, i, memory, hmemory, drained_report _ m hm⟩

end Driver

end XgmacDriver

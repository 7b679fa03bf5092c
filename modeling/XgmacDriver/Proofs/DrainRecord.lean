import XgmacDriver.Proofs.FrameContent

/-! # The record of a drain

A drain handles one completed descriptor after the other. A `Handling` is the record of one of them:
what was read of its buffer, and what the filter, the stack and the engine answered. Whether a frame
was forwarded, in which buffer and with which length, follows from the record, and so does which
questions were asked.
-/

namespace XgmacDriver

namespace Exchange

/-- Whether the answer has a part in what is forwarded. Events and releases have none. -/
def isInquiry : Exchange → Bool
  | rxEvent .. | releaseBuffer .. => false
  | _ => true

/-- The frames that were offered to the stack, whether it took them or not. -/
def offered : Exchange → List Delivery
  | rxEvent _ deliveries _ => deliveries
  | _ => []

theorem offered_of_isInquiry {x : Exchange} (h : x.isInquiry = true) : x.offered = [] := by
  cases x <;> first | rfl | cases h

end Exchange

/-- What became of one descriptor: what was read of its buffer and which answers the driver got. An
answer to a question that was not asked has no meaning. The frame is `screened` if the filter was
asked about it, and `admitted` if it passed. -/
structure Handling where
  rx : RxCompletion
  bytes : List UInt8
  verdict : Disposition
  /-- The stack's buffer for the frame or for the ring. -/
  grant : Option NetworkBuffer
  /-- The descriptor of the buffer that the frame was received into. -/
  owner : Option NetworkBuffer
  /-- What lay in its buffer when the endpoint was asked for. -/
  seen : List UInt8
  endpoint : Option UInt16
  refill : Except EngineStatus Unit
  /-- The descriptor of the buffer that the engine refused. -/
  recycled : Option NetworkBuffer

namespace Handling

variable (i : Interface) (h : Handling)

def length : Nat := min h.rx.size maxPacketSize

def stops : Bool := h.rx.buf.isNone || !h.refill.isOk

def screened : Bool := !h.rx.hasError && i.config.filterFrames

def admitted : Bool := !h.rx.hasError && (!i.config.filterFrames || h.verdict = .process)

/-- The payload of the stack's buffer, if the frame is admitted. -/
def fresh : Option Addr := if h.admitted i then h.grant.bind (·.payload) else none

/-- The descriptor in which the frame is handed up. -/
def delivered : Option NetworkBuffer :=
  if (h.fresh i).isNone then none else if i.config.zeroCopyRx then h.owner else h.grant

/-- The frame that is handed up, without its checksum. -/
def frame : Option RxFrame :=
  if h.rx.buf.isNone then none
  else (h.delivered i).map fun buffer => {
    buffer := { buffer with length := min h.length buffer.capacity - ethernetCrcLength }
    interface := i.index
    endpoint := h.endpoint }

def delivery : Option Delivery :=
  (h.frame i).map fun frame => ⟨frame, h.bytes.take frame.buffer.length⟩

/-- The buffer that the descriptor is given, after it had `buf`. -/
def next (buf : Addr) : Addr :=
  if i.config.zeroCopyRx && (h.delivered i).isSome then (h.fresh i).getD buf else buf

def result (buf : Addr) : Driver.Received :=
  match h.frame i with
  | some frame => .forward frame (h.next i buf)
  | none => .drop (h.next i buf)

/-- What is asked about an admitted frame in `buf` once there is a buffer of the stack. -/
def handover (buf : Addr) : List Exchange :=
  (if i.config.zeroCopyRx then [.lookup buf h.owner] else []) ++
    if (h.delivered i).isSome then [.matchEndpoint i.index h.seen h.endpoint] else []

def requests : List Exchange :=
  (if h.screened i then [.considerFrame h.bytes h.verdict] else []) ++
    if h.admitted i then [.getBuffer maxPacketSize 0 h.grant] else []

def questions (buf : Addr) : List Exchange :=
  h.requests i ++ if (h.fresh i).isSome then h.handover i buf else []

/-- The offer of `buf` to the engine, and the search for its owner if the engine refuses it. -/
def refilling (buf : Addr) : List Exchange :=
  .command (.refill buf) h.refill ::
    if !h.refill.isOk && i.config.zeroCopyRx then [.lookup buf h.recycled] else []

def inquiries : List Exchange :=
  .nextReceived (some h.rx) :: match h.rx.buf with
    | none => []
    | some buf => h.questions i buf ++ h.refilling i (h.next i buf)

def copied (memory : Memory) : Memory :=
  match h.rx.buf, h.fresh i, h.grant with
  | some buf, some fresh, some buffer =>
      if i.config.zeroCopyRx then memory
      else memory.copy buf fresh (min h.length buffer.capacity)
  | _, _, _ => memory

/-- The handling that has got no answer yet after the verdict of the filter. What it gets then is
filled in by `granted`, `placed` and `answered`. -/
def ofVerdict (rx : RxCompletion) (bytes : List UInt8) (verdict : Disposition) : Handling where
  rx
  bytes
  verdict
  grant := none
  owner := none
  seen := []
  endpoint := none
  refill := .ok ()
  recycled := none

def granted (grant : Option NetworkBuffer) : Handling := { h with grant }

def placed (owner : Option NetworkBuffer) (seen : List UInt8) (endpoint : Option UInt16) :
    Handling :=
  { h with owner, seen, endpoint }

def answered (refill : Except EngineStatus Unit) (recycled : Option NetworkBuffer) : Handling :=
  { h with refill, recycled }

variable {i h} {f : RxFrame} {memory : Memory}

theorem admitted_iff : h.admitted i = true ↔
    h.rx.hasError = false ∧ (i.config.filterFrames = true → h.verdict = .process) := by
  cases hfilter : i.config.filterFrames <;> simp [admitted, hfilter]

theorem fresh_eq_some_iff {p : Addr} : h.fresh i = some p ↔
    h.admitted i = true ∧ ∃ buffer, h.grant = some buffer ∧ buffer.payload = some p := by
  by_cases hadmitted : h.admitted i = true <;> simp [fresh, hadmitted, Option.bind_eq_some_iff]

theorem fresh_eq_none (hgrant : h.grant.bind (·.payload) = none) : h.fresh i = none := by
  simp [fresh, hgrant]

theorem delivered_eq_some_iff {buffer : NetworkBuffer} : h.delivered i = some buffer ↔
    (∃ p, h.fresh i = some p) ∧
      (if i.config.zeroCopyRx then h.owner else h.grant) = some buffer := by
  cases hfresh : h.fresh i <;> simp [delivered, hfresh]

theorem frame_eq_some_iff : h.frame i = some f ↔ h.rx.buf.isSome = true ∧
    ∃ buffer, h.delivered i = some buffer ∧ f = {
      buffer := { buffer with length := min h.length buffer.capacity - ethernetCrcLength }
      interface := i.index
      endpoint := h.endpoint } := by
  cases hbuf : h.rx.buf <;> simp [frame, hbuf, Option.map_eq_some_iff, eq_comm (a := f)]

theorem frame_isSome_iff (hbuf : h.rx.buf.isSome = true) : (h.frame i).isSome = true ↔
    h.admitted i = true ∧ (∃ buffer p, h.grant = some buffer ∧ buffer.payload = some p) ∧
      (i.config.zeroCopyRx = true → ∃ buffer, h.owner = some buffer) := by
  simp only [Option.isSome_iff_exists, frame_eq_some_iff, delivered_eq_some_iff, fresh_eq_some_iff]
  constructor
  · rintro ⟨_, -, buffer, ⟨⟨p, hadmitted, granted, hgrant, hp⟩, hbuffer⟩, -⟩
    refine ⟨hadmitted, ⟨granted, p, hgrant, hp⟩, fun hzero => ⟨buffer, ?_⟩⟩
    rwa [if_pos hzero] at hbuffer
  · rintro ⟨hadmitted, ⟨granted, p, hgrant, hp⟩, howner⟩
    have hfresh : ∃ p, h.admitted i = true ∧ ∃ buffer, h.grant = some buffer ∧
        buffer.payload = some p := ⟨p, hadmitted, granted, hgrant, hp⟩
    have hbuf := Option.isSome_iff_exists.mp hbuf
    by_cases hzero : i.config.zeroCopyRx = true
    · obtain ⟨owner, howner⟩ := howner hzero
      exact ⟨_, hbuf, owner, ⟨hfresh, by rwa [if_pos hzero]⟩, rfl⟩
    · exact ⟨_, hbuf, granted, ⟨hfresh, by rwa [if_neg hzero]⟩, rfl⟩

theorem result_of_delivered_eq_none {buf : Addr} (hdelivered : h.delivered i = none) :
    h.result i buf = .drop buf := by
  simp [result, frame, next, hdelivered]

theorem result_of_delivered_eq_some {buf p : Addr} {buffer : NetworkBuffer}
    (hbuf : h.rx.buf = some buf) (hfresh : h.fresh i = some p)
    (hdelivered : h.delivered i = some buffer) : h.result i buf = .forward {
      buffer := { buffer with length := min h.length buffer.capacity - ethernetCrcLength }
      interface := i.index
      endpoint := h.endpoint } (if i.config.zeroCopyRx then p else buf) := by
  simp [result, frame, next, hbuf, hfresh, hdelivered]

theorem frame_of_result_forward {buf refill : Addr} (hresult : .forward f refill = h.result i buf) :
    h.frame i = some f ∧ refill = h.next i buf := by
  unfold result at hresult
  split at hresult
  · rename_i g hg
    cases hresult
    exact ⟨hg, rfl⟩
  · cases hresult

theorem frame_of_result_drop {buf refill : Addr} (hresult : .drop refill = h.result i buf) :
    h.frame i = none ∧ refill = h.next i buf := by
  unfold result at hresult
  split at hresult
  · cases hresult
  · rename_i hnone
    cases hresult
    exact ⟨hnone, rfl⟩

theorem frame_length_le (hf : h.frame i = some f) : f.buffer.length ≤ f.buffer.capacity := by
  obtain ⟨-, buffer, -, rfl⟩ := frame_eq_some_iff.mp hf
  simp only
  omega

theorem copied_eq_copy {buf p : Addr} {buffer : NetworkBuffer} (memory : Memory)
    (hcopying : i.config.zeroCopyRx = false) (hbuf : h.rx.buf = some buf)
    (hfresh : h.fresh i = some p) (hgrant : h.grant = some buffer) :
    h.copied i memory = memory.copy buf p (min h.length buffer.capacity) := by
  simp [copied, hbuf, hfresh, hgrant, hcopying]

theorem copied_of_frame_eq_none (hcopying : i.config.zeroCopyRx = false) (hf : h.frame i = none) :
    h.copied i memory = memory := by
  unfold copied
  split
  · rename_i buf fresh buffer hbuf hfresh hgrant
    have hdelivered : h.delivered i = some buffer :=
      delivered_eq_some_iff.mpr ⟨⟨fresh, hfresh⟩, by simp [hcopying, hgrant]⟩
    simp [frame, hbuf, hdelivered] at hf
  · rfl

theorem copied_of_frame_eq_some (memory : Memory) (hcopying : i.config.zeroCopyRx = false)
    (hf : h.frame i = some f) :
    ∃ buf p, h.rx.buf = some buf ∧ f.buffer.payload = some p ∧
      f.buffer.length = min h.length f.buffer.capacity - ethernetCrcLength ∧
      h.copied i memory = memory.copy buf p (min h.length f.buffer.capacity) := by
  obtain ⟨hbuf, buffer, hdelivered, rfl⟩ := frame_eq_some_iff.mp hf
  obtain ⟨⟨p, hfresh⟩, hbuffer⟩ := delivered_eq_some_iff.mp hdelivered
  obtain ⟨-, granted, hgrant, hp⟩ := fresh_eq_some_iff.mp hfresh
  obtain ⟨buf, hbuf⟩ := Option.isSome_iff_exists.mp hbuf
  obtain rfl : granted = buffer := by simpa [hcopying, hgrant] using hbuffer
  have hcopied := copied_eq_copy memory hcopying hbuf hfresh hgrant
  exact ⟨buf, p, hbuf, hp, rfl, hcopied⟩

theorem copied_of_zeroCopyRx (hzero : i.config.zeroCopyRx = true) : h.copied i memory = memory := by
  unfold copied
  split
  · rw [if_pos hzero]
  · rfl

end Handling

/-! ## Several descriptors -/

/-- `P` holds of every element and those before it. -/
def Stepwise {α : Type} (P : List α → α → Prop) (as : List α) : Prop :=
  ∀ before a after, as = before ++ a :: after → P before a

theorem stepwise_nil {α : Type} {P : List α → α → Prop} : Stepwise P [] := by
  intro before a after h
  simp at h

theorem stepwise_concat {α : Type} {P : List α → α → Prop} {as : List α} {a : α} :
    Stepwise P (as ++ [a]) ↔ Stepwise P as ∧ P as a := by
  constructor
  · intro h
    refine ⟨fun before b after has => h before b (after ++ [a]) ?_, h as a [] rfl⟩
    rw [has, List.append_assoc, List.cons_append]
  · rintro ⟨has, ha⟩ before b after heq
    rcases List.eq_nil_or_concat after with rfl | ⟨after, c, rfl⟩
    · obtain ⟨rfl, hab⟩ := List.append_inj' heq rfl
      obtain rfl : a = b := by simpa using hab
      exact ha
    · rw [List.concat_eq_append, ← List.cons_append, ← List.append_assoc] at heq
      exact has before b after (List.append_inj' heq rfl).1

namespace Interface

variable (i : Interface)

/-- The frames that a drain holds back after one more frame. -/
def heldBack (batch : List RxFrame) (frame : RxFrame) : List RxFrame :=
  if !i.config.linkedRx then batch
  else if batch.length < rxBatchCapacity then batch ++ [frame]
  else [frame]

/-- The frames that the handling of some descriptors leaves to be delivered. -/
def held (handled : List Handling) : List RxFrame :=
  (handled.filterMap (Handling.frame i)).foldl i.heldBack []

theorem held_eq_nil {i : Interface} (hsingle : i.config.linkedRx = false)
    (handled : List Handling) : i.held handled = [] := by
  have hfold : ∀ fs : List RxFrame, fs.foldl i.heldBack [] = [] := by
    intro fs
    induction fs with
    | nil => rfl
    | cons f fs ih => simpa [heldBack, hsingle] using ih
  exact hfold _

def copies (memory : Memory) (handled : List Handling) : Memory :=
  handled.foldl (fun memory h => h.copied i memory) memory

end Interface

/-- The bytes that a frame's buffer can hold lie outside the `n` bytes from `a` on. -/
def RxFrame.ClearOf (f : RxFrame) (a : Addr) (n : Nat) : Prop :=
  ∀ p, f.buffer.payload = some p →
    p.toNat + f.buffer.capacity ≤ a.toNat ∨ a.toNat + n ≤ p.toNat

theorem Delivery.of_write {memory : Memory} {f : RxFrame} {a : Addr} {bytes : List UInt8}
    (hclear : f.ClearOf a bytes.length) (hlength : f.buffer.length ≤ f.buffer.capacity) :
    Delivery.of (memory.write a bytes) f = Delivery.of memory f := by
  unfold Delivery.of
  cases hpayload : f.buffer.payload with
  | none => rfl
  | some p =>
      have hapart := hclear p hpayload
      have hread : (memory.write a bytes).read p f.buffer.length =
          memory.read p f.buffer.length := by
        apply Memory.read_write_of_disjoint
        omega
      simp only [hread]

/-- The bytes that belong to a received buffer: a slot of the pool, or the largest frame. -/
def Interface.receivedLength (i : Interface) : Nat := max maxPacketSize i.rxPool.slotSize

/-- The stack grants only buffers that are its own: they lie clear of the received buffers and of
those that it has granted for frames that were not delivered yet. -/
def OwnGrants (i : Interface) (received : List Addr) : List Handling → Prop :=
  Stepwise fun before h => ∀ f, h.frame i = some f →
    (∀ a ∈ received, f.ClearOf a i.receivedLength) ∧
      ∀ g ∈ i.held before, ∀ q, g.buffer.payload = some q → f.ClearOf q g.buffer.capacity

end XgmacDriver

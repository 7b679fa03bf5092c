import XgmacDriver.Proofs.Triple
import XgmacDriver.Receive

/-! # An outline of the drain

During a drain buffers change hands at a few points only. `DrainOutline` has one assertion for each
of them, with the queue that is left, the buffer that the open descriptor is to be given and the
frames that are not delivered yet. If every single step leads from its point to the next, the whole
drain leads from the first point to the last.
-/

namespace XgmacDriver.Driver

variable {σ : Type} {c : Collaborators σ}

section

variable {P D : Machine σ → Prop} {a : Addr}

/-- `G buffer refill` holds once it is known that the frame at `a` goes up in `buffer`, and that the
descriptor gets `refill`. -/
theorem meets_forwardFrame {G : NetworkBuffer → Addr → Machine σ → Prop}
    {Q : Received → Machine σ → Prop} {length : Nat} {replacement : NetworkBuffer} {fresh : Addr}
    (hlookup : Meets (fun m => P m ∧ m.interface.config.zeroCopyRx = true) (lookup c a) fun
      | some owner => G owner fresh
      | none => D)
    (hunowned : Meets D (report (.receivedBufferWithoutOwner a)) fun _ => D)
    (hdrop : Meets D (releaseBuffer c replacement.index) fun _ => Q (.drop a))
    (hcopy : Meets (fun m => P m ∧ m.interface.config.zeroCopyRx = false)
      (copyMemory a fresh (min length replacement.capacity)) fun _ => G replacement a)
    (hmatch : ∀ buffer refill bytes, Meets (G buffer refill) (matchEndpoint c bytes)
      fun endpoint m => Q (.forward {
        buffer := { buffer with length := min length buffer.capacity - ethernetCrcLength }
        interface := m.interface.index
        endpoint } refill) m) :
    Meets P (forwardFrame c a length replacement fresh) Q := by
  have hfinish : ∀ (buffer : NetworkBuffer) (refill : Addr), Meets (G buffer refill) (do
      let endpoint ← matchEndpoint c (← readMemory a length)
      let buffer := { buffer with length := min length buffer.capacity - ethernetCrcLength }
      return Received.forward { buffer, interface := (← interface).index, endpoint } refill) Q := by
    intro buffer refill
    refine (meets_readMemory a length).bind fun bytes => ?_
    refine (hmatch buffer refill bytes).bind fun endpoint => meets_interface.bind fun i => ?_
    refine meets_pure ?_
    rintro m ⟨hm, rfl⟩
    exact hm
  unfold forwardFrame
  refine meets_config.bind fun config => Meets.ite ?_ ?_
  · intro hzero
    refine (hlookup.pre ?_).bind ?_
    · rintro m ⟨hm, rfl⟩
      exact ⟨hm, hzero⟩
    · rintro (_ | owner)
      · exact hunowned.bind fun _ => hdrop.bind fun _ => meets_pure fun _ hm => hm
      · exact hfinish owner fresh
  · intro hcopying
    refine (hcopy.pre ?_).bind fun _ => hfinish replacement a
    rintro m ⟨hm, rfl⟩
    exact ⟨hm, Bool.not_eq_true _ |>.mp hcopying⟩

theorem meets_recycle {F : Option NetworkBuffer → Machine σ → Prop}
    {S : Except DriverError Unit → Machine σ → Prop} {Q : Unit → Machine σ → Prop}
    (hlookup : Meets (fun m => P m ∧ m.interface.config.zeroCopyRx = true) (lookup c a) F)
    (hbuffer : ∀ buffer, Meets (F (some buffer)) (releaseBuffer c buffer.index) Q)
    (hunowned : Meets (F none) (report (.receivedBufferWithoutOwner a)) Q)
    (hslot : Meets (fun m => P m ∧ m.interface.config.zeroCopyRx = false) (releaseSlot c .rx a) S)
    (hreturned : ∀ m, S (.ok ()) m → Q () m)
    (hrefused : ∀ e, Meets (S (.error e)) (report (.rxSlotNotReturned a e)) Q) :
    Meets P (recycle c a) Q := by
  unfold recycle
  refine meets_config.bind fun config => Meets.ite ?_ ?_
  · intro hzero
    refine (hlookup.pre ?_).bind ?_
    · rintro m ⟨hm, rfl⟩
      exact ⟨hm, hzero⟩
    · rintro (_ | buffer)
      · exact hunowned
      · exact hbuffer buffer
  · intro hcopying
    refine (hslot.pre ?_).bind ?_
    · rintro m ⟨hm, rfl⟩
      exact ⟨hm, Bool.not_eq_true _ |>.mp hcopying⟩
    · rintro (e | ⟨⟩)
      · exact hrefused e
      · exact meets_pure hreturned

end

/-- The frames that `F` speaks of leave it by an event or by their release, and in no other way. -/
structure FrameAccount (c : Collaborators σ) (F : List RxFrame → Machine σ → Prop) : Prop where
  perm : ∀ {fs gs m}, fs.Perm gs → F fs m → F gs m
  report : ∀ entry fs, Meets (F fs) (report entry) fun _ => F fs
  send : ∀ fs gs, Meets (F (fs ++ gs)) (sendRxEvent c fs) fun taken =>
    F (if taken then gs else fs ++ gs)
  release : ∀ f fs, Meets (F (f :: fs)) (releaseBuffer c f.buffer.index) fun _ => F fs

namespace FrameAccount

variable {F : List RxFrame → Machine σ → Prop}

theorem exists_index {ι : Type} {F : ι → List RxFrame → Machine σ → Prop}
    (h : ∀ i, FrameAccount c (F i)) : FrameAccount c fun fs m => ∃ i, F i fs m where
  perm := by
    rintro fs gs m hperm ⟨i, hm⟩
    exact ⟨i, (h i).perm hperm hm⟩
  report entry fs := by
    rintro m ⟨i, hm⟩
    exact ⟨i, (h i).report entry fs m hm⟩
  send fs gs := by
    rintro m ⟨i, hm⟩
    exact ⟨i, (h i).send fs gs m hm⟩
  release f fs := by
    rintro m ⟨i, hm⟩
    exact ⟨i, (h i).release f fs m hm⟩

theorem releaseAll (h : FrameAccount c F) (fs gs : List RxFrame) :
    Meets (F (fs ++ gs)) (fs.forM fun f => releaseBuffer c f.buffer.index) fun _ => F gs :=
  Meets.forM (I := fun fs => F (fs ++ gs)) (fun f fs => h.release f (fs ++ gs)) fs

theorem passToStack (h : FrameAccount c F) (fs gs : List RxFrame) :
    Meets (F (fs ++ gs)) (passToStack c fs) fun _ => F gs := by
  unfold Driver.passToStack
  apply Meets.ite
  · intro hempty
    obtain rfl := List.isEmpty_iff.mp hempty
    exact meets_pure fun _ hm => hm
  · intro _
    refine (h.send fs gs).bind ?_
    intro taken
    apply Meets.ite
    · rintro rfl
      exact meets_pure fun _ hm => hm
    · intro htaken
      obtain rfl : taken = false := by simpa using htaken
      refine (h.report _ _).bind fun _ => ?_
      exact (h.releaseAll fs gs).bind fun _ => meets_pure fun _ hm => hm

theorem deliver (h : FrameAccount c F) (batch : List RxFrame) (frame : RxFrame) :
    Meets (F (frame :: batch)) (deliver c batch frame) fun r => F r.1 := by
  unfold Driver.deliver
  refine meets_config.bind fun config => ?_
  apply Meets.ite
  · intro _
    refine Meets.bind ?_ fun _ => meets_pure fun _ hm => hm
    exact (h.passToStack [frame] batch).pre fun _ hm => hm.1
  · intro _
    apply Meets.ite
    · intro _
      refine meets_pure fun _ hm => ?_
      exact h.perm (List.perm_append_singleton frame batch).symm hm.1
    · intro _
      refine Meets.bind ?_ fun _ => meets_pure fun _ hm => hm
      refine (h.passToStack batch [frame]).pre fun _ hm => ?_
      exact h.perm (List.perm_append_singleton frame batch).symm hm.1

end FrameAccount

structure DrainOutline (σ : Type) where
  /-- Before the next descriptor is read. -/
  ready : List RxCompletion → List RxFrame → Machine σ → Prop
  /-- One descriptor is open, and a buffer is at hand for it. -/
  holding : List RxCompletion → Addr → List RxFrame → Machine σ → Prop
  /-- A buffer of the stack has been obtained besides. -/
  replacing : List RxCompletion → Addr → NetworkBuffer → List RxFrame → Machine σ → Prop
  /-- The engine has refused the buffer. -/
  refused : List RxCompletion → Addr → List RxFrame → Machine σ → Prop
  ended : List RxFrame → Machine σ → Prop

namespace DrainOutline

def received (D : DrainOutline σ) (rest : List RxCompletion) (fs : List RxFrame) :
    Received → Machine σ → Prop
  | .forward frame refill => D.holding rest refill (frame :: fs)
  | .drop refill => D.holding rest refill fs

structure Sound (D : DrainOutline σ) (c : Collaborators σ) : Prop where
  holding_frames : ∀ rest a, FrameAccount c (D.holding rest a)
  ended_frames : FrameAccount c D.ended
  next_empty : ∀ fs, Meets (D.ready [] fs) nextReceived fun _ => D.ended fs
  next_bufferless : ∀ rx rest fs, rx.buf = none →
    Meets (D.ready (rx :: rest) fs) nextReceived fun _ => D.ended fs
  next : ∀ rx rest a fs, rx.buf = some a →
    Meets (D.ready (rx :: rest) fs) nextReceived fun _ => D.holding rest a fs
  consider : ∀ rest a fs bytes,
    Meets (D.holding rest a fs) (considerFrame c bytes) fun _ => D.holding rest a fs
  obtain_buffer : ∀ rest a fs, Meets (D.holding rest a fs) (getBuffer c maxPacketSize 0) fun
    | none => D.holding rest a fs
    | some replacement => D.replacing rest a replacement fs
  release_replacement : ∀ rest a replacement fs,
    Meets (D.replacing rest a replacement fs) (releaseBuffer c replacement.index) fun _ =>
      D.holding rest a fs
  forward : ∀ rest a replacement fresh fs length, replacement.payload = some fresh →
    Meets (D.replacing rest a replacement fs) (forwardFrame c a length replacement fresh)
      (D.received rest fs)
  refill : ∀ rest a fs, Meets (D.holding rest a fs) (command c (.refill a)) fun
    | .ok () => D.ready rest fs
    | .error _ => D.refused rest a fs
  refused_report : ∀ rest a fs entry,
    Meets (D.refused rest a fs) (report entry) fun _ => D.refused rest a fs
  recycle : ∀ rest a fs, Meets (D.refused rest a fs) (recycle c a) fun _ => D.ended fs

namespace Sound

variable {D : DrainOutline σ}

theorem isFiltered (h : D.Sound c) (rest : List RxCompletion) (a : Addr) (fs : List RxFrame)
    (bytes : List UInt8) :
    Meets (D.holding rest a fs) (isFiltered c bytes) fun _ => D.holding rest a fs := by
  unfold Driver.isFiltered
  refine meets_config.bind fun config => ?_
  apply Meets.ite
  · intro _
    refine Meets.bind ?_ fun _ => meets_pure fun _ hm => hm
    exact (h.consider rest a fs bytes).pre fun _ hm => hm.1
  · intro _
    exact meets_pure fun _ hm => hm.1

theorem receiveFrame (h : D.Sound c) (rx : RxCompletion) (rest : List RxCompletion) (a : Addr)
    (fs : List RxFrame) :
    Meets (D.holding rest a fs) (receiveFrame c rx a) (D.received rest fs) := by
  unfold Driver.receiveFrame
  apply Meets.ite
  · intro _
    refine ((h.holding_frames rest a).report _ fs).bind fun _ => ?_
    exact meets_pure fun _ hm => hm
  · intro _
    refine (meets_readMemory a _).bind fun bytes => ?_
    refine (h.isFiltered rest a fs bytes).bind fun filtered => ?_
    apply Meets.ite
    · intro _
      exact meets_pure fun _ hm => hm
    · intro _
      refine (h.obtain_buffer rest a fs).bind ?_
      rintro (_ | replacement)
      · refine ((h.holding_frames rest a).report _ fs).bind fun _ => ?_
        exact meets_pure fun _ hm => hm
      · dsimp only
        cases hpayload : replacement.payload with
        | none =>
            refine (h.release_replacement rest a replacement fs).bind fun _ => ?_
            exact meets_pure fun _ hm => hm
        | some fresh => exact h.forward rest a replacement fresh fs _ hpayload

/-- One descriptor after the other, by induction on the queue. -/
theorem drain (h : D.Sound c) (completed : List RxCompletion) (batch : List RxFrame)
    (delivered : Nat) :
    Meets (D.ready completed batch) (drain c batch delivered completed) fun r =>
      D.ended r.1 := by
  induction completed generalizing batch delivered with
  | nil => exact (h.next_empty batch).bind fun _ => meets_pure fun _ hm => hm
  | cons rx rest ih =>
      unfold Driver.drain
      cases hbuf : rx.buf with
      | none =>
          refine (h.next_bufferless rx rest batch hbuf).bind fun _ => ?_
          exact (h.ended_frames.report _ batch).bind fun _ => meets_pure fun _ hm => hm
      | some a =>
          have hrefill : ∀ refill batch taken, Meets (D.holding rest refill batch) (do
              match ← command c (.refill refill) with
              | .ok () => Driver.drain c batch (delivered + taken) rest
              | .error status =>
                  report (.refillRefused status)
                  Driver.recycle c refill
                  return (batch, delivered + taken)) fun r => D.ended r.1 := by
            intro refill batch taken
            refine (h.refill rest refill batch).bind ?_
            rintro (status | ⟨⟩)
            · refine (h.refused_report rest refill batch _).bind fun _ => ?_
              exact (h.recycle rest refill batch).bind fun _ => meets_pure fun _ hm => hm
            · exact ih batch (delivered + taken)
          refine (h.next rx rest a batch hbuf).bind fun _ => ?_
          refine (h.receiveFrame rx rest a batch).bind ?_
          rintro (⟨frame, refill⟩ | refill)
          · refine ((h.holding_frames rest refill).deliver batch frame).bind fun r => ?_
            exact hrefill refill r.1 r.2
          · exact hrefill refill batch 0

theorem processReceived (h : D.Sound c) (m : Machine σ) (hopen : m.interface.engineOpen = true)
    (hready : D.ready m.engine.completed [] m) :
    D.ended [] ((processReceived c).run m).2 := by
  have hpass : ∀ fs, Meets (D.ended fs) (Driver.passToStack c fs) fun _ => D.ended [] := by
    intro fs
    simpa using h.ended_frames.passToStack fs []
  have hdrain : Meets (D.ready m.engine.completed []) (do
      let r ← Driver.drain c [] 0 m.engine.completed
      return r.2 + (← Driver.passToStack c r.1)) fun _ => D.ended [] := by
    refine (h.drain m.engine.completed [] 0).bind fun r => ?_
    exact (hpass r.1).bind fun _ => meets_pure fun _ hm => hm
  have hrun : (Driver.processReceived c).run m =
      (do let r ← Driver.drain c [] 0 m.engine.completed
          return r.2 + (← Driver.passToStack c r.1)).run m := by
    simp [Driver.processReceived, hopen]
  rw [hrun]
  exact hdrain m hready

end Sound

end DrainOutline

end XgmacDriver.Driver

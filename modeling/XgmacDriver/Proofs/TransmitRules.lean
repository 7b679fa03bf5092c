import XgmacDriver.Proofs.Triple
import XgmacDriver.Transmit

/-! # Rules for output and reclaim

A rule leads from what holds before a function to what holds after it, by way of the steps that the
function is made of. What every step preserves holds after the whole.
-/

namespace XgmacDriver

variable {σ : Type} {c : Collaborators σ} {P : Machine σ → Prop}

namespace Driver

/-- `F` holds once the owner of the buffer is known, and `S` once the pool has answered. -/
theorem meets_returnSent {F : Option NetworkBuffer → Machine σ → Prop}
    {S : Except DriverError Unit → Machine σ → Prop} {Q : Bool → Machine σ → Prop} {a : Addr}
    (hlookup : Meets (fun m => P m ∧ m.interface.config.zeroCopyTx = true) (lookup c a) F)
    (hunowned : Meets (F none) (report (.sentBufferWithoutOwner a)) fun _ => Q false)
    (hbuffer : ∀ buffer, Meets (F (some buffer)) (releaseBuffer c buffer.index) fun _ => Q true)
    (hslot : Meets (fun m => P m ∧ m.interface.config.zeroCopyTx = false) (releaseSlot c .tx a) S)
    (hreturned : ∀ m, S (.ok ()) m → Q true m)
    (hrefused : ∀ e, Meets (S (.error e)) (report (.txSlotNotReleased e)) fun _ => Q false) :
    Meets P (returnSent c a) Q := by
  unfold returnSent
  refine meets_config.bind fun config => Meets.ite ?_ ?_
  · intro hzero
    refine (hlookup.pre ?_).bind ?_
    · rintro m ⟨hm, rfl⟩
      exact ⟨hm, hzero⟩
    · rintro (_ | buffer)
      · exact hunowned.bind fun _ => meets_pure fun _ hm => hm
      · exact (hbuffer buffer).bind fun _ => meets_pure fun _ hm => hm
  · intro hcopying
    refine (hslot.pre ?_).bind ?_
    · rintro m ⟨hm, rfl⟩
      exact ⟨hm, Bool.not_eq_true _ |>.mp hcopying⟩
    · rintro (e | ⟨⟩)
      · exact (hrefused e).bind fun _ => meets_pure fun _ hm => hm
      · exact meets_pure hreturned

section

variable {I T : Nat → Nat → Machine σ → Prop} {A : Nat → Nat → TxAnswer → Machine σ → Prop}
  {Q : Nat → Machine σ → Prop}
  (htake : ∀ reclaimed count, Meets (I reclaimed (count + 1))
    (modifyInterface (·.mapNotifier Notifier.takeCompletion)) fun _ => T reclaimed count)
  (hnext : ∀ reclaimed count, Meets (T reclaimed count) nextTransmitted (A reclaimed count))
  (hnone : ∀ reclaimed count m, A reclaimed count (.ok none) m → I reclaimed count m)
  (hsome : ∀ reclaimed count a, Meets (A reclaimed count (.ok (some a))) (returnSent c a)
    fun returned => I (if returned then reclaimed + 1 else reclaimed) count)
  (herror : ∀ reclaimed count status, Meets (A reclaimed count (.error status))
    (report (.completionFailed status)) fun _ => Q reclaimed)
  (hdone : ∀ reclaimed m, I reclaimed 0 m → Q reclaimed m)
include htake hnext hnone hsome herror hdone

/-- `I reclaimed count` holds while `count` completions are counted, `T` once one of them has been
taken off the counter and `A` once the engine has answered for it. -/
theorem meets_reclaimCounted (reclaimed count : Nat) :
    Meets (I reclaimed count) (reclaimCounted c reclaimed count) Q := by
  induction count generalizing reclaimed with
  | zero => exact meets_pure (hdone reclaimed)
  | succ count ih =>
      unfold reclaimCounted
      refine (htake reclaimed count).bind fun _ => (hnext reclaimed count).bind ?_
      rintro (status | _ | a)
      · exact (herror reclaimed count status).bind fun _ => meets_pure fun _ hm => hm
      · exact (ih reclaimed).pre (hnone reclaimed count)
      · exact (hsome reclaimed count a).bind fun returned => ih _

theorem meets_reclaim (hclosed : ∀ m, P m → m.interface.engineOpen = false → Q 0 m)
    (hopen : ∀ m, P m → m.interface.engineOpen = true →
      I 0 m.interface.notifier.completions.count m) : Meets P (reclaim c) Q := by
  have hcounted := meets_reclaimCounted htake hnext hnone hsome herror hdone 0
  unfold reclaim
  refine meets_interface.bind fun i => Meets.ite ?_ ?_
  · intro hi
    refine meets_pure ?_
    rintro m ⟨hm, rfl⟩
    exact hclosed m hm (by simpa using hi)
  · intro hi
    refine (hcounted i.notifier.completions.count).pre ?_
    rintro m ⟨hm, rfl⟩
    exact hopen m hm (by simpa using hi)

end

section

variable (hreport : ∀ entry, Meets P (report entry) fun _ => P)
  (hlookup : ∀ a, Meets P (lookup c a) fun _ => P)
  (hbuffer : ∀ i, Meets P (releaseBuffer c i) fun _ => P)
  (hslot : ∀ a, Meets P (releaseSlot c .tx a) fun _ => P)
include hreport hlookup hbuffer hslot

theorem preserves_returnSent (a : Addr) : Meets P (returnSent c a) fun _ => P :=
  meets_returnSent (F := fun _ => P) (S := fun _ => P) (Q := fun _ => P)
    ((hlookup a).pre fun _ hm => hm.1) (hreport _) (fun _ => hbuffer _)
    ((hslot a).pre fun _ hm => hm.1) (fun _ hm => hm) fun _ => hreport _

theorem preserves_reclaim
    (htake : Meets P (modifyInterface (·.mapNotifier Notifier.takeCompletion)) fun _ => P)
    (hnext : Meets P nextTransmitted fun _ => P) : Meets P (reclaim c) fun _ => P :=
  meets_reclaim (I := fun _ _ => P) (T := fun _ _ => P) (A := fun _ _ _ => P) (Q := fun _ => P)
    (fun _ _ => htake) (fun _ _ => hnext) (fun _ _ _ hm => hm)
    (fun _ _ a => preserves_returnSent hreport hlookup hbuffer hslot a) (fun _ _ _ => hreport _)
    (fun _ _ hm => hm) (fun _ hm _ => hm) fun _ hm _ => hm

end

end Driver

namespace Attempt

variable {E : Failure → Machine σ → Prop}

theorem meets_stageFrame {F : Except DriverError Addr → Machine σ → Prop}
    {Q : Addr → Machine σ → Prop} {payload : Addr} {length : Nat}
    (hdirect : ∀ m, P m → m.interface.config.zeroCopyTx = true → Q payload m)
    (hacquire : Driver.Meets (fun m => P m ∧ m.interface.config.zeroCopyTx = false)
      (Driver.acquireSlot c .tx maxPacketSize) F)
    (hhalt : ∀ e m, F (.error e) m → E (.halt (.noTransmitSlot e)) m)
    (hcopy : ∀ slot, Driver.Meets (F (.ok slot)) (Driver.copyMemory payload slot length)
      fun _ => Q slot) : Meets P (stageFrame c payload length) Q E := by
  unfold stageFrame
  refine Meets.bind (meets_always Driver.meets_config) fun config => Meets.ite ?_ ?_
  · intro hzero
    refine meets_pure ?_
    rintro m ⟨hm, rfl⟩
    exact hdirect m hm hzero
  · intro hcopying
    refine Meets.bind (meets_always (hacquire.pre ?_)) ?_
    · rintro m ⟨hm, rfl⟩
      exact ⟨hm, Bool.not_eq_true _ |>.mp hcopying⟩
    · rintro (e | slot)
      · exact meets_halt fun m hm => hhalt e m hm
      · exact (meets_always (hcopy slot)).bind fun _ => meets_pure fun _ hm => hm

/-- `B buf` holds once the engine has refused the frame at `buf`. -/
theorem meets_submit {A B : Addr → Machine σ → Prop}
    {S : Except DriverError Unit → Machine σ → Prop} {Q : Bool → Machine σ → Prop}
    {payload : Addr} {length : Nat}
    (hstage : Meets P (stageFrame c payload length) A E)
    (htransmit : ∀ buf bytes, Driver.Meets (A buf)
      (Driver.command c (.transmit { buf, size := length, release := true, bytes })) fun
        | .ok () => Q true
        | .error _ => B buf)
    (hrefused : ∀ buf status,
      Driver.Meets (B buf) (Driver.report (.transmitRefused status)) fun _ => B buf)
    (hdirect : ∀ buf m, B buf m → m.interface.config.zeroCopyTx = true → Q false m)
    (hslot : ∀ buf, Driver.Meets (fun m => B buf m ∧ m.interface.config.zeroCopyTx = false)
      (Driver.releaseSlot c .tx buf) S)
    (hreturned : ∀ m, S (.ok ()) m → Q false m)
    (hlost : ∀ e, Driver.Meets (S (.error e)) (Driver.report (.txSlotNotReturned e))
      fun _ => Q false) : Meets P (submit c payload length) Q E := by
  unfold submit
  refine hstage.bind fun buf => ?_
  refine Meets.bind (meets_always (Driver.meets_readMemory buf length)) fun bytes => ?_
  refine Meets.bind (meets_always (htransmit buf bytes)) ?_
  rintro (status | ⟨⟩)
  · refine Meets.bind (meets_always (hrefused buf status)) fun _ => ?_
    refine Meets.bind (meets_always Driver.meets_config) fun config => Meets.ite ?_ ?_
    · intro hcopying
      refine Meets.bind (meets_always ((hslot buf).pre ?_)) ?_
      · rintro m ⟨hm, rfl⟩
        exact ⟨hm, by simpa using hcopying⟩
      · rintro (e | ⟨⟩)
        · exact Meets.bind (meets_always (hlost e)) fun _ => meets_pure fun _ hm => hm
        · exact meets_pure hreturned
    · intro hzero
      refine meets_pure ?_
      rintro m ⟨hm, rfl⟩
      exact hdirect buf m hm (by simpa using hzero)
  · exact meets_pure fun _ hm => hm

/-- `R` holds when it has been decided whether the buffer goes back to the stack at once. -/
theorem meets_output {R : Bool → Machine σ → Prop} {Q : Unit → Machine σ → Prop}
    {buffer : NetworkBuffer} {releaseAfterSend : Bool}
    (hclosed : ∀ index, Driver.Meets (fun m => P m ∧ m.interface.engineOpen = false)
      (Driver.report (.outputBeforeInit index)) fun _ => E (.error .engineNotInitialized))
    (hnull : buffer.payload = none →
      Driver.Meets P (Driver.report .outputWithoutPayload) fun _ => E (.error .nullPayload))
    (hsubmit : ∀ i payload, buffer.payload = some payload →
      Meets (fun m => P m ∧ i = m.interface ∧ i.linkIsUp = true)
        (submit c payload (min (min buffer.length maxPacketSize) buffer.capacity))
        (fun accepted => R (!accepted || (releaseAfterSend && !i.config.zeroCopyTx))) E)
    (hdropped : Driver.Meets (fun m => P m ∧ m.interface.linkIsUp = false)
      (Driver.report (.frameDropped buffer.length)) fun _ => R releaseAfterSend)
    (hrelease : Driver.Meets (R true) (Driver.releaseBuffer c buffer.index) Q)
    (hkept : ∀ m, R false m → Q () m) : Meets P (output c buffer releaseAfterSend) Q E := by
  have hend : ∀ release : Bool, Meets (R release)
      (if release then always (Driver.releaseBuffer c buffer.index) else pure ()) Q E := by
    intro release
    cases release with
    | true => exact meets_always hrelease
    | false => exact meets_pure hkept
  unfold output
  refine Meets.bind (meets_always Driver.meets_interface) fun i => Meets.ite ?_ ?_
  · intro hi
    refine Meets.bind (meets_always ((hclosed _).pre ?_)) fun _ => meets_fail fun _ hm => hm
    rintro m ⟨hm, rfl⟩
    exact ⟨hm, by simpa using hi⟩
  · intro _
    cases hpayload : buffer.payload with
    | none =>
        refine Meets.bind (meets_always ((hnull hpayload).pre fun _ hm => hm.1)) fun _ => ?_
        exact meets_fail fun _ hm => hm
    | some payload =>
        refine Meets.ite ?_ ?_
        · intro hup
          refine ((hsubmit i payload hpayload).pre fun _ hm => ?_).bind fun accepted => hend _
          exact ⟨hm.1, hm.2, hup⟩
        · intro hdown
          refine Meets.bind (meets_always (hdropped.pre ?_)) fun _ => hend _
          rintro m ⟨hm, rfl⟩
          exact ⟨hm, Bool.not_eq_true _ |>.mp hdown⟩

section

variable (hreport : ∀ entry, Driver.Meets P (Driver.report entry) fun _ => P)
  (hcopy : ∀ src dst n, Driver.Meets P (Driver.copyMemory src dst n) fun _ => P)
  (hacquire : Driver.Meets P (Driver.acquireSlot c .tx maxPacketSize) fun _ => P)
  (hslot : ∀ a, Driver.Meets P (Driver.releaseSlot c .tx a) fun _ => P)
  (htransmit : ∀ frame, Driver.Meets P (Driver.command c (.transmit frame)) fun _ => P)
include hreport hcopy hacquire hslot htransmit

theorem preserves_submit (payload : Addr) (length : Nat) :
    Meets P (submit c payload length) (fun _ => P) fun _ => P := by
  have hstage : Meets P (stageFrame c payload length) (fun _ => P) fun _ => P :=
    meets_stageFrame (F := fun _ => P) (fun _ hm _ => hm) (hacquire.pre fun _ hm => hm.1)
      (fun _ _ hm => hm) fun slot => hcopy payload slot length
  refine meets_submit (B := fun _ => P) (S := fun _ => P) hstage (fun buf bytes => ?_)
    (fun _ _ => hreport _) (fun _ _ hm _ => hm) (fun buf => (hslot buf).pre fun _ hm => hm.1)
    (fun _ hm => hm) fun _ => hreport _
  refine (htransmit _).post ?_
  rintro (status | ⟨⟩) m hm
  · exact hm
  · exact hm

/-- What the steps of an output preserve holds after it, also if it is cut short. -/
theorem preserves_output (hbuffer : ∀ i, Driver.Meets P (Driver.releaseBuffer c i) fun _ => P)
    (buffer : NetworkBuffer) (releaseAfterSend : Bool) :
    Meets P (output c buffer releaseAfterSend) (fun _ => P) fun _ => P :=
  meets_output (R := fun _ => P) (fun _ => (hreport _).pre fun _ hm => hm.1) (fun _ => hreport _)
    (fun _ payload _ =>
      (preserves_submit hreport hcopy hacquire hslot htransmit payload _).pre fun _ hm => hm.1)
    ((hreport _).pre fun _ hm => hm.1) (hbuffer _) fun _ hm => hm

end

end Attempt

end XgmacDriver

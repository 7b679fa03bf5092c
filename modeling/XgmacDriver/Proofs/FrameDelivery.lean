import XgmacDriver.Proofs.FrameSteps

/-! # What a drain delivers

A drain in which every request is granted hands up what the classification of the stored frames
says, whether it copies or not. Once a request has been turned down nothing is claimed any more,
except that the drain goes on with the same interface.
-/

namespace XgmacDriver.Driver

variable {σ π : Type} {c : Collaborators σ} {arena : σ → Arena} {state : σ → π} {b : Burst π}
  {p : Standing π} {I : Interface → Prop} {n : Nat}

/-! ## After a request was turned down -/

/-- A request since the exchange `n` was turned down. -/
def Denied (n : Nat) (I : Interface → Prop) : Machine σ → Prop := OnProvision n I fun _ => False

theorem Denied.provision {m : Machine σ} {A : Machine σ → Prop} (h : Denied n I m) :
    OnProvision n I A m :=
  h.mono False.elim

theorem Meets.provided {α : Type} {φ : Prop} {A : Machine σ → Prop} {x : Driver σ α}
    {Q : α → Machine σ → Prop} (hx : φ → Meets (OnProvision n I A) x Q)
    (hdenied : Meets (Denied n I) x Q) : Meets (OnProvision n I fun m => φ ∧ A m) x Q := by
  intro m hm
  by_cases hφ : φ
  · exact hx hφ m (hm.mono And.right)
  · exact hdenied m (hm.mono fun h => hφ h.1)

theorem denied_report (entry : LogEntry) :
    Meets (Denied n I) (report entry : Driver σ Unit) fun _ => Denied n I :=
  fun _ hm => hm.aside rfl hm.interface fun _ h => h

theorem denied_releaseBuffer (i : UInt16) :
    Meets (Denied n I) (releaseBuffer c i) fun _ => Denied n I :=
  meets_releaseBuffer fun _ _ _ hm _ => hm.exchange rfl rfl fun _ h _ => h

theorem denied_lookup (a : Addr) : Meets (Denied n I) (lookup c a) fun _ => Denied n I :=
  meets_lookup fun _ _ _ hm _ => hm.exchange rfl rfl fun _ h _ => h

theorem denied_matchEndpoint (bytes : List UInt8) :
    Meets (Denied n I) (matchEndpoint c bytes) fun _ => Denied n I :=
  meets_matchEndpoint fun _ _ _ hm _ => hm.exchange rfl rfl fun _ h _ => h

theorem denied_finish (a : Addr) (length : Nat) (buffer : NetworkBuffer) (refill : Addr) :
    Meets (Denied n I) (do
      let endpoint ← matchEndpoint c (← readMemory a length)
      let buffer := { buffer with length := min length buffer.capacity - ethernetCrcLength }
      return Received.forward { buffer, interface := (← interface).index, endpoint } refill)
      fun _ => Denied n I := by
  refine (meets_readMemory a length).bind fun bytes => ?_
  refine (denied_matchEndpoint bytes).bind fun endpoint => ?_
  exact meets_interface.bind fun _ => meets_pure fun _ hm => hm.1

theorem denied_forwardFrame (a : Addr) (length : Nat) (replacement : NetworkBuffer)
    (fresh : Addr) :
    Meets (Denied n I) (forwardFrame c a length replacement fresh) fun _ => Denied n I := by
  refine meets_forwardFrame (D := Denied n I) (G := fun _ _ => Denied n I)
    ((denied_lookup a).mono (fun _ hm => hm.1) ?_) (denied_report _) (denied_releaseBuffer _)
    (fun _ hm => hm.1.aside rfl hm.1.interface fun _ h => h) fun _ _ bytes =>
      denied_matchEndpoint bytes
  rintro (_ | owner) m hm
  · exact hm
  · exact hm

/-- The interface may be changed by a slot that is given back. -/
theorem denied_recycle (a : Addr) :
    Meets (Denied n I) (recycle c a) fun _ => Denied n fun _ => True := by
  have hend : ∀ m : Machine σ, Denied n I m → Denied n (fun _ => True) m :=
    fun _ hm => ⟨hm.trace_le, trivial, hm.holds⟩
  refine meets_recycle (F := fun _ => Denied n I) (S := fun _ => Denied n fun _ => True)
    ((denied_lookup a).pre fun _ hm => hm.1)
    (fun _ => (denied_releaseBuffer _).post fun _ => hend) ((denied_report _).post fun _ => hend)
    (meets_onPool fun _ _ hm _ => ?_) (fun _ hm => hm) fun _ => denied_report _
  exact hm.1.aside rfl trivial fun _ h => h

/-! ## The drain -/

/-- Where the reception of a frame leads. -/
def Forwarded (arena : σ → Arena) (state : σ → π) (b : Burst π) (rest : List Landed)
    (frames : List RxFrame) (taken : Nat) (due : π → List Parcel) :
    Received → Machine σ → Prop
  | .forward frame refill => OnProvision b.since (· = b.interface) (Reception arena state b
      (.holding [] rest refill (frames ++ [frame]) taken due))
  | .drop refill => OnProvision b.since (· = b.interface) (Reception arena state b
      (.holding [] rest refill frames taken due))

theorem Denied.forwarded {rest : List Landed} {frames : List RxFrame} {taken : Nat}
    {due : π → List Parcel} {m : Machine σ} (h : Denied b.since (· = b.interface) m)
    (r : Received) : Forwarded arena state b rest frames taken due r m := by
  cases r with
  | forward => exact h.provision
  | drop => exact h.provision

section

variable {f : Landed} {opened rest : List Landed} {frames fs gs batch : List RxFrame}
  {taken : Nat} {due : π → List Parcel}

section

variable (hstack : ArenaStack c arena) (hclass : Classifies c b.classifier state)
include hstack hclass

theorem receiving_finish {buffer : NetworkBuffer} {refill : Addr} (husable : b.Usable buffer)
    (hf : f.completion.hasError = false) (hopened : f ∈ opened)
    (hcopy : { f with buf := b.start.payloadAt buffer.index } ∈ opened) :
    Meets (OnProvision b.since (· = b.interface) (Reception arena state b
        (.replacing opened rest refill (b.start.payloadAt buffer.index) frames taken
          (b.classifier.forwarded b.interface.index f.content due)))) (do
      let endpoint ← matchEndpoint c (← readMemory f.buf (min f.size maxPacketSize))
      let buffer := { buffer with
        length := min (min f.size maxPacketSize) buffer.capacity - ethernetCrcLength }
      return Received.forward { buffer, interface := (← interface).index, endpoint } refill)
      (Forwarded arena state b rest frames taken due) := by
  refine (receiving_readMemory hf hopened).bind fun bytes => ?_
  refine (receiving_matchEndpoint hstack hclass (fun endpoint s =>
    { bytes := f.content.take (f.content.length - ethernetCrcLength)
      length := f.content.length - ethernetCrcLength
      interface := b.interface.index
      endpoint } :: due s) fun _ => rfl).bind fun endpoint => ?_
  refine meets_interface.bind fun i => meets_pure fun m hm => ?_
  obtain ⟨hm, rfl⟩ := hm
  exact hm.mono fun h => h.forward husable hf hcopy endpoint

theorem receiving_forwardFrame {replacement : NetworkBuffer} {fresh : Addr}
    (hpayload : replacement.payload = some fresh) (hf : f.completion.hasError = false) :
    Meets (OnProvision b.since (· = b.interface) fun m => b.Usable replacement ∧
        Reception arena state b (.replacing [f] rest f.buf (b.start.payloadAt replacement.index)
          frames taken (b.classifier.forwarded b.interface.index f.content due)) m)
      (forwardFrame c f.buf (min f.size maxPacketSize) replacement fresh)
      (Forwarded arena state b rest frames taken due) := by
  refine Meets.provided (fun husable => ?_)
    ((denied_forwardFrame _ _ _ _).post fun r _ hm => hm.forwarded r)
  obtain rfl : fresh = b.start.payloadAt replacement.index :=
    Option.some.inj (hpayload.symm.trans husable.payload)
  unfold forwardFrame
  refine provision_config.bind fun config => Meets.given ?_
  rintro rfl
  apply Meets.ite
  · intro hzero
    have hspare : f.buf ∈ (Standing.replacing [f] rest f.buf
        (b.start.payloadAt replacement.index) frames taken
        (b.classifier.forwarded b.interface.index f.content due)).spare := List.mem_singleton_self _
    refine (receiving_lookup hstack hclass hzero hspare).bind ?_
    rintro (_ | owner)
    · refine (denied_report _).bind fun _ => (denied_releaseBuffer _).bind fun _ => ?_
      exact meets_pure fun _ hm => hm.forwarded _
    · -- The frame goes up where it lies, and the fresh buffer takes its place in the ring.
      refine Meets.provided ?_
        ((denied_finish _ _ _ _).post fun r _ hm => hm.forwarded r)
      rintro ⟨howner, hbuf⟩
      refine (receiving_finish hstack hclass howner hf (List.mem_singleton_self f) ?_).pre
        fun m hm => hm.mono fun h => ?_
      · simp [hbuf]
      · rw [hbuf]
        exact h.swap hzero
  · -- A copy goes up, and the ring gets its own buffer back.
    intro hcopying
    have hcopying : b.interface.config.zeroCopyRx = false := by simpa using hcopying
    have hlength : min (min f.size maxPacketSize) replacement.capacity =
        min f.size maxPacketSize :=
      Nat.min_eq_left (Nat.le_trans (Nat.min_le_right _ _) husable.capacity)
    rw [hlength]
    refine Meets.bind (receiving_copyMemory hcopying hf rfl rfl rfl) fun _ => ?_
    exact receiving_finish hstack hclass husable hf (by simp) (by simp)

theorem receiving_isFiltered {bytes : List UInt8} {a : Addr} :
    Meets (OnProvision b.since (· = b.interface) fun m => bytes = f.content ∧
        Reception arena state b (.holding opened rest a frames taken
          (b.classifier.screened b.interface.config.filterFrames b.interface.index f.content due))
          m)
      (isFiltered c bytes) fun filtered => OnProvision b.since (· = b.interface)
        (Reception arena state b (.holding opened rest a frames taken
          (if filtered then due
            else b.classifier.forwarded b.interface.index f.content due))) := by
  unfold isFiltered
  refine provision_config.bind fun config => Meets.given ?_
  rintro rfl
  apply Meets.ite
  · intro hfilter
    refine (receiving_considerFrame hstack hclass (fun verdict => if verdict = .release then due
      else b.classifier.forwarded b.interface.index f.content due) ?_).bind fun verdict => ?_
    · intro s
      simp [Standing.holding, Classifier.screened, hfilter]
      split <;> rfl
    · refine meets_pure fun m hm => ?_
      simpa [Standing.holding] using hm
  · intro hfilter
    refine meets_pure fun m hm => hm.mono fun h => ?_
    have hdue : b.classifier.screened b.interface.config.filterFrames b.interface.index f.content
        due = b.classifier.forwarded b.interface.index f.content due := by
      funext s
      simp [Classifier.screened, hfilter]
    rw [hdue] at h
    exact h.2

theorem receiving_receiveFrame :
    Meets (OnProvision b.since (· = b.interface)
        (Reception arena state b (.holding [f] rest f.buf frames taken (b.due (f :: rest)))))
      (receiveFrame c f.completion f.buf)
      (Forwarded arena state b rest frames taken (b.due rest)) := by
  unfold receiveFrame
  apply Meets.ite
  · intro herror
    rw [b.due_cons_of_error herror]
    refine (receiving_report _).bind fun _ => meets_pure fun m hm => ?_
    exact hm.mono fun h => h.close
  · intro hvalid
    have hf : f.completion.hasError = false := by simpa using hvalid
    rw [b.due_cons hf]
    refine (receiving_readMemory hf (by simp [Standing.holding])).bind fun bytes => ?_
    refine (receiving_isFiltered hstack hclass).bind fun filtered => ?_
    apply Meets.ite
    · rintro rfl
      exact meets_pure fun m hm => hm.mono fun h => h.close
    · intro hforward
      rw [if_neg hforward]
      refine (receiving_getBuffer hstack hclass maxPacketSize 0).bind ?_
      rintro (_ | replacement)
      · refine (denied_report _).bind fun _ => meets_pure fun m hm => ?_
        exact hm.forwarded _
      · dsimp only
        cases hpayload : replacement.payload with
        | none =>
            refine Meets.bind (R := fun _ => Denied b.since (· = b.interface)) ?_ fun _ => ?_
            · refine (denied_releaseBuffer _).pre fun m hm => hm.mono fun h => ?_
              exact Option.some_ne_none _ (h.1.payload.symm.trans hpayload)
            · exact meets_pure fun m hm => hm.forwarded _
        | some fresh => exact receiving_forwardFrame hstack hclass hpayload hf

theorem receiving_passToStack (p : Standing π) (fs gs : List RxFrame) :
    Meets (OnProvision b.since I (Reception arena state b { p with frames := fs ++ gs }))
      (passToStack c fs) fun taken => OnProvision b.since I
        (Reception arena state b { p with frames := gs, taken := p.taken + taken }) := by
  unfold passToStack
  apply Meets.ite
  · intro hempty
    obtain rfl := List.isEmpty_iff.mp hempty
    exact meets_pure fun _ hm => hm
  · intro _
    refine (receiving_sendRxEvent hstack hclass fs gs).bind ?_
    rintro (_ | _)
    · refine (denied_report _).bind fun _ => ?_
      refine Meets.bind (R := fun _ => Denied b.since I) ?_ fun _ => ?_
      · exact Meets.forM (I := fun _ => Denied b.since I) (fun _ _ => denied_releaseBuffer _) fs
      · exact meets_pure fun _ hm => hm.provision
    · exact meets_pure fun _ hm => hm

theorem receiving_deliver {a : Addr} {frame : RxFrame}
    (hbatch : b.interface.config.linkedRx = false → batch = []) :
    Meets (OnProvision b.since (· = b.interface)
        (Reception arena state b (.holding [] rest a (batch ++ [frame]) taken due)))
      (deliver c batch frame) fun r m =>
        (b.interface.config.linkedRx = false → r.1 = []) ∧
          OnProvision b.since (· = b.interface)
            (Reception arena state b (.holding [] rest a r.1 (taken + r.2) due)) m := by
  unfold deliver
  refine provision_config.bind fun config => Meets.given ?_
  rintro rfl
  apply Meets.ite
  · intro hsingle
    have hsingle : b.interface.config.linkedRx = false := by simpa using hsingle
    obtain rfl := hbatch hsingle
    refine Meets.bind ?_ fun _ => meets_pure fun _ hm => ⟨fun _ => rfl, hm⟩
    exact receiving_passToStack hstack hclass (.holding [] rest a [] taken due) [frame] []
  · intro hlinked
    have hlinked : ¬b.interface.config.linkedRx = false := by simpa using hlinked
    apply Meets.ite
    · intro _
      exact meets_pure fun _ hm => ⟨fun hsingle => absurd hsingle hlinked, hm⟩
    · intro _
      refine Meets.bind ?_ fun _ => meets_pure fun _ hm =>
        ⟨fun hsingle => absurd hsingle hlinked, hm⟩
      exact receiving_passToStack hstack hclass (.holding [] rest a [] taken due) batch [frame]

theorem receiving_refillAndDrain (a : Addr) {batch : List RxFrame} {delivered : Nat}
    {rest : List Landed}
    (hrest : Meets (OnProvision b.since (· = b.interface)
        (Reception arena state b (.between rest batch delivered (b.due rest))))
      (drain c batch delivered (rest.map Landed.completion)) fun r =>
        OnProvision b.since (fun _ => True)
          (Reception arena state b (.between [] r.1 r.2 (b.due [])))) :
    Meets (OnProvision b.since (· = b.interface)
        (Reception arena state b (.holding [] rest a batch delivered (b.due rest))))
      (do match ← command c (.refill a) with
          | .ok () => drain c batch delivered (rest.map Landed.completion)
          | .error status =>
              report (.refillRefused status)
              recycle c a
              return (batch, delivered)) fun r =>
        OnProvision b.since (fun _ => True)
          (Reception arena state b (.between [] r.1 r.2 (b.due []))) := by
  refine (receiving_refill hstack hclass rfl).bind ?_
  rintro (status | ⟨⟩)
  · refine (denied_report _).bind fun _ => (denied_recycle a).bind fun _ => ?_
    exact meets_pure fun _ hm => hm.provision
  · exact hrest

/-- One descriptor after the other, by induction on the completed frames. -/
theorem receiving_drain (rest : List Landed) (batch : List RxFrame) (delivered : Nat)
    (hbatch : b.interface.config.linkedRx = false → batch = []) :
    Meets (OnProvision b.since (· = b.interface)
        (Reception arena state b (.between rest batch delivered (b.due rest))))
      (drain c batch delivered (rest.map Landed.completion)) fun r =>
        OnProvision b.since (fun _ => True)
          (Reception arena state b (.between [] r.1 r.2 (b.due []))) := by
  induction rest generalizing batch delivered with
  | nil =>
      refine (receiving_nextReceived_nil rfl).bind fun _ => meets_pure fun m hm => ?_
      exact ⟨hm.trace_le, trivial, hm.holds⟩
  | cons f rest ih =>
      unfold drain
      refine (receiving_nextReceived rfl rfl rfl).bind fun _ => ?_
      refine (receiving_receiveFrame hstack hclass).bind ?_
      rintro (⟨frame, a⟩ | a)
      · refine (receiving_deliver hstack hclass hbatch).bind fun r => Meets.given fun hr => ?_
        exact receiving_refillAndDrain hstack hclass a (ih r.1 _ hr)
      · exact receiving_refillAndDrain hstack hclass a (ih batch _ hbatch)

/-- When every request is granted a drain hands up all that is due, and it counts it. -/
theorem processReceived_delivers {fs : List Landed} {m m' : Machine σ} {count : Nat}
    (hopen : fs ≠ [] → m.interface.engineOpen = true)
    (hstart : Reception arena state b (.between fs [] 0 (b.due fs)) m)
    (hsince : b.since = m.trace.size) (hrun : (count, m') = (processReceived c).run m)
    (hprovided : m'.Provided b.since) :
    count = b.total.length ∧ m'.parcels b.since = b.total ∧
      Reception arena state b (.between [] [] count fun _ => []) m' := by
  have hend : Reception arena state b (.between [] [] count fun _ => []) m' := by
    by_cases hready : m.interface.engineOpen = true
    · have hdrain : Meets (OnProvision b.since (· = b.interface)
          (Reception arena state b (.between fs [] 0 (b.due fs)))) (do
            let r ← drain c [] 0 (fs.map Landed.completion)
            return r.2 + (← passToStack c r.1)) fun count => OnProvision b.since (fun _ => True)
              (Reception arena state b (.between [] [] count fun _ => [])) := by
        refine (receiving_drain hstack hclass fs [] 0 fun _ => rfl).bind fun r => ?_
        refine Meets.bind ?_ fun _ => meets_pure fun _ hm => hm
        have hpass := receiving_passToStack (I := fun _ => True) hstack hclass
          (.between [] [] r.2 (b.due [])) r.1 []
        rw [List.append_nil] at hpass
        exact hpass
      have hsame : (processReceived c).run m = (do
          let r ← drain c [] 0 (fs.map Landed.completion)
          return r.2 + (← passToStack c r.1)).run m := by
        simp [processReceived, hready, hstart.completed, Standing.between]
      have hend := hdrain m ⟨Nat.le_of_eq hsince, hstart.interface, fun _ => hstart⟩
      rw [← hsame, ← hrun] at hend
      exact hend.holds hprovided
    · have hnone : fs = [] := by
        by_contra hfs
        exact hready (hopen hfs)
      have hidle : (processReceived c).run m = pure (0, m) := by
        simp [processReceived, hready]
      cases hrun.trans hidle
      subst hnone
      exact hstart
  have hparcels : m'.parcels b.since = b.total := by
    simpa [Standing.between] using hend.parcels
  refine ⟨?_, hparcels, hend⟩
  rw [← hparcels]
  exact hend.taken.symm

end

end

end XgmacDriver.Driver

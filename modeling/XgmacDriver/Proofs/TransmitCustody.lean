import XgmacDriver.Proofs.ArenaPartition
import XgmacDriver.Proofs.TransmitLedger

/-! # Who has a buffer that was offered for output

Without copying, a buffer of the stack goes to the engine and comes back from it as a bare address.
`Custody` says of every buffer that was offered where it is: in flight, with the caller again, or
back with the arena, to which each one returns at most once.
-/

namespace XgmacDriver

namespace Arena

/-- What the arena `a` has become since the buffers in `back` were given back, in that order. -/
structure Returned (a : Arena) (back : List UInt16) (b : Arena) : Prop where
  wellFormed : b.WellFormed
  sameSlots : a.SameSlots b
  free : b.free = back.reverse ++ a.free
  inUse : ∀ i, b.isInUse i = true ↔ a.isInUse i = true ∧ i ∉ back

theorem Returned.refl {a : Arena} (h : a.WellFormed) : a.Returned [] a where
  wellFormed := h
  sameSlots := .refl a
  free := rfl
  inUse _ := (and_iff_left List.not_mem_nil).symm

theorem Returned.give {a b : Arena} {back : List UInt16} {i : UInt16} (h : a.Returned back b)
    (hi : a.isInUse i = true) (hback : i ∉ back) : a.Returned (back ++ [i]) (b.give i).2 := by
  have huse : b.isInUse i = true := (h.inUse i).mpr ⟨hi, hback⟩
  have hlt : i.toNat < b.slots := h.wellFormed.lt_of_isInUse huse
  rw [h.wellFormed.give_eq huse]
  refine ⟨h.wellFormed.give hlt huse, ⟨h.sameSlots.base, h.sameSlots.slots, h.sameSlots.slotSize⟩,
    ?_, ?_⟩
  · rw [List.reverse_append, h.free]
    rfl
  · intro j
    rw [isInUse_set (h.wellFormed.size_inUse ▸ hlt), List.mem_append, List.mem_singleton]
    by_cases hij : i = j
    · subst hij
      simp
    · simpa [hij, Ne.symm hij] using h.inUse j

end Arena

/-- What becomes of a buffer that is offered for output: the engine takes its frame or refuses it,
or the link is down and the stack gets it back or the caller keeps it. -/
inductive Fate
  | accepted
  | refused
  | dropped
  | kept
deriving DecidableEq

def Fate.of (linkUp taken releaseAfterSend : Bool) : Fate :=
  if linkUp then if taken then .accepted else .refused
  else if releaseAfterSend then .dropped else .kept

structure Offer where
  index : UInt16
  payload : Addr
  fate : Fate
deriving DecidableEq

namespace Offer

/-- The payload leads to the descriptor, which is in use. -/
structure Owned (a : Arena) (o : Offer) : Prop where
  lookup : a.lookup o.payload = a.descriptor o.index
  isInUse : a.isInUse o.index = true

/-- Whether the buffer is back with the stack, once the engine has handed back `handed`. -/
def isBack (handed : List Addr) (o : Offer) : Bool :=
  match o.fate with
  | .accepted => o.payload ∈ handed
  | .refused | .dropped => true
  | .kept => false

/-- The addresses that the engine got. -/
def accepted (offers : List Offer) : List Addr :=
  (offers.filter (·.fate = .accepted)).map Offer.payload

theorem accepted_append (offers : List Offer) (o : Offer) :
    accepted (offers ++ [o]) =
      accepted offers ++ if o.fate = .accepted then [o.payload] else [] := by
  by_cases ho : o.fate = .accepted <;> simp [accepted, ho]

theorem mem_accepted {offers : List Offer} {a : Addr} :
    a ∈ accepted offers ↔ ∃ o ∈ offers, o.fate = .accepted ∧ o.payload = a := by
  simp [accepted, and_assoc]

variable {a : Arena} {o o' : Offer} {handed : List Addr}

theorem Owned.index_eq (h : a.WellFormed) (ho : o.Owned a) (ho' : o'.Owned a)
    (hpayload : o.payload = o'.payload) : o.index = o'.index := by
  have hdescriptor := Arena.descriptor_of_lt (h.lt_of_isInUse ho.isInUse)
  have hsame : a.descriptor o'.index = a.descriptor o.index := by
    rw [← ho'.lookup, ← hpayload, ho.lookup]
  exact Arena.index_of_descriptor (hsame.trans hdescriptor)

theorem isBack_append (ho : o.isBack handed = true) (b : Addr) :
    o.isBack (handed ++ [b]) = true := by
  unfold isBack at ho ⊢
  cases hfate : o.fate <;> simp_all

theorem isBack_of_isBack_append {b : Addr} (ho : o.isBack (handed ++ [b]) = true) :
    o.isBack handed = true ∨ o.fate = .accepted ∧ o.payload = b := by
  unfold isBack at ho ⊢
  cases hfate : o.fate <;> simp_all

end Offer

/-- The part of the machine that buffers in transmission depend on, with the stack's arena. -/
structure SendView where
  tx : TxView
  released : List UInt16
  arena : Arena

namespace SendView

def submit (a : Addr) (v : SendView) : SendView :=
  { v with tx := { v.tx with
      outstanding := v.tx.outstanding ++ [a]
      submitted := v.tx.submitted ++ [a] } }

def release (i : UInt16) (v : SendView) : SendView :=
  { v with released := v.released ++ [i], arena := (v.arena.give i).2 }

def offer (o : Offer) (v : SendView) : SendView :=
  match o.fate with
  | .accepted => v.submit o.payload
  | .refused | .dropped => v.release o.index
  | .kept => v

/-- The frame at `a` has been sent, and its completion is counted. -/
def complete (a : Addr) (v : SendView) : SendView :=
  { v with tx := { v.tx with
      outstanding := v.tx.outstanding.erase a
      done := v.tx.done ++ [.ok (some a)]
      completions := v.tx.completions.give.2 } }

def count (v : SendView) : SendView :=
  { v with tx := { v.tx with completions := v.tx.completions.give.2 } }

def take (v : SendView) : SendView :=
  { v with tx := { v.tx with completions := v.tx.completions.take.2 } }

/-- The engine hands the frame at `a` back, and then has `rest` to report. -/
def handBack (a : Addr) (rest : List TxAnswer) (v : SendView) : SendView :=
  { v with tx := { v.tx with done := rest, handedBack := v.tx.handedBack ++ [a] } }

end SendView

open SendView TxView

/-- Since `start` the engine has handed back `handed`, and the driver has released `back`: of the
buffers that were offered exactly those that are due. -/
structure Custody (start : SendView) (offers : List Offer) (handed : List Addr)
    (back : List UInt16) (v : SendView) : Prop where
  engineOpen : v.tx.engineOpen = true
  zeroCopy : v.tx.zeroCopy = true
  callback : v.tx.callback = true
  armed : v.tx.armed = true
  max_eq : v.tx.completions.max = poolSlots
  done_eq : v.tx.done = v.tx.waiting.map fun a => .ok (some a)
  done_le : v.tx.done.length ≤ v.tx.completions.count
  handedBack : v.tx.handedBack = start.tx.handedBack ++ handed
  released : v.released = start.released ++ back
  wellFormed : start.arena.WellFormed
  distinct : (offers.map Offer.index).Nodup
  owned : ∀ o ∈ offers, o.Owned start.arena
  flow : (Offer.accepted offers).Perm (handed ++ v.tx.inFlight)
  nodup_back : back.Nodup
  mem_back : ∀ i, i ∈ back ↔ ∃ o ∈ offers, o.index = i ∧ o.isBack handed = true
  returned : start.arena.Returned back v.arena

namespace Custody

variable {start v : SendView} {offers : List Offer} {handed : List Addr} {back : List UInt16}
  {o o' : Offer} {a : Addr}

theorem begin (hopen : v.tx.engineOpen = true) (hzero : v.tx.zeroCopy = true)
    (hcallback : v.tx.callback = true) (harmed : v.tx.armed = true)
    (hmax : v.tx.completions.max = poolSlots) (houtstanding : v.tx.outstanding = [])
    (hdone : v.tx.done = []) (hwellFormed : v.arena.WellFormed) : Custody v [] [] [] v where
  engineOpen := hopen
  zeroCopy := hzero
  callback := hcallback
  armed := harmed
  max_eq := hmax
  done_eq := by
    rw [waiting, hdone]
    rfl
  done_le := by
    rw [hdone]
    exact Nat.zero_le _
  handedBack := (List.append_nil _).symm
  released := (List.append_nil _).symm
  wellFormed := hwellFormed
  distinct := List.nodup_nil
  owned := nofun
  flow := by
    rw [inFlight, waiting, houtstanding, hdone]
    exact .refl _
  nodup_back := List.nodup_nil
  mem_back := by simp
  returned := .refl hwellFormed

theorem eq_of_index (h : Custody start offers handed back v) (ho : o ∈ offers) (ho' : o' ∈ offers)
    (hindex : o.index = o'.index) : o = o' :=
  List.inj_on_of_nodup_map h.distinct ho ho' hindex

theorem eq_of_payload (h : Custody start offers handed back v) (ho : o ∈ offers)
    (ho' : o' ∈ offers) (hpayload : o.payload = o'.payload) : o = o' :=
  h.eq_of_index ho ho' ((h.owned o ho).index_eq h.wellFormed (h.owned o' ho') hpayload)

theorem nodup_accepted (h : Custody start offers handed back v) :
    (Offer.accepted offers).Nodup := by
  refine List.Nodup.map_on ?_ (h.distinct.of_map.filter _)
  intro o ho o' ho' hpayload
  exact h.eq_of_payload (List.mem_of_mem_filter ho) (List.mem_of_mem_filter ho') hpayload

theorem nodup_flow (h : Custody start offers handed back v) : (handed ++ v.tx.inFlight).Nodup :=
  h.flow.nodup_iff.mp h.nodup_accepted

theorem not_mem_handed (h : Custody start offers handed back v) (ho : o.Owned start.arena)
    (hnew : o.index ∉ offers.map Offer.index) : o.payload ∉ handed := by
  intro hhanded
  obtain ⟨o', ho', -, hpayload⟩ :=
    Offer.mem_accepted.mp (h.flow.mem_iff.mpr (List.mem_append_left _ hhanded))
  have hindex := (h.owned o' ho').index_eq h.wellFormed ho hpayload
  exact hnew (hindex ▸ List.mem_map_of_mem ho')

theorem not_mem_back (h : Custody start offers handed back v)
    (hnew : o.index ∉ offers.map Offer.index) : o.index ∉ back := by
  intro hback
  obtain ⟨o', ho', hindex, -⟩ := (h.mem_back _).mp hback
  exact hnew (hindex ▸ List.mem_map_of_mem ho')

/-- A buffer that is not back can be given back. -/
theorem give (h : Custody start offers handed back v) (ho : o.Owned start.arena)
    (hout : o.index ∉ back) : (back ++ [o.index]).Nodup ∧
      v.released ++ [o.index] = start.released ++ (back ++ [o.index]) ∧
      start.arena.Returned (back ++ [o.index]) (v.arena.give o.index).2 := by
  refine ⟨List.nodup_append'.mpr ⟨h.nodup_back, List.nodup_singleton _, ?_⟩, ?_, ?_⟩
  · exact List.disjoint_singleton.mpr hout
  · rw [h.released, List.append_assoc]
  · exact h.returned.give ho.isInUse hout

theorem mem_back_offer (h : Custody start offers handed back v) (o : Offer) (i : UInt16) :
    (i ∈ if o.isBack handed = true then back ++ [o.index] else back) ↔
      ∃ o' ∈ offers ++ [o], o'.index = i ∧ o'.isBack handed = true := by
  have hsplit : (i ∈ if o.isBack handed = true then back ++ [o.index] else back) ↔
      i ∈ back ∨ o.index = i ∧ o.isBack handed = true := by
    split <;> simp [*, eq_comm]
  rw [hsplit, h.mem_back i]
  simp only [List.mem_append, List.mem_singleton, or_and_right, exists_or, exists_eq_left]

/-- The buffer that is offered has not been offered before. -/
theorem offer (h : Custody start offers handed back v) (ho : o.Owned start.arena)
    (hnew : o.index ∉ offers.map Offer.index) :
    Custody start (offers ++ [o]) handed
      (if o.isBack handed then back ++ [o.index] else back) (v.offer o) := by
  have hdistinct : ((offers ++ [o]).map Offer.index).Nodup := by
    rw [List.map_append]
    exact List.nodup_append'.mpr ⟨h.distinct, List.nodup_singleton _, by simpa using hnew⟩
  have howned : ∀ o' ∈ offers ++ [o], o'.Owned start.arena := by
    intro o' ho'
    rcases List.mem_append.mp ho' with hold | hlast
    · exact h.owned o' hold
    · obtain rfl := List.mem_singleton.mp hlast
      exact ho
  have hmem := h.mem_back_offer o
  have hflow : o.fate ≠ .accepted →
      (Offer.accepted (offers ++ [o])).Perm (handed ++ v.tx.inFlight) := by
    intro hfate
    rw [Offer.accepted_append, if_neg hfate, List.append_nil]
    exact h.flow
  cases hfate : o.fate with
  | accepted =>
      have hback : o.isBack handed = false := by
        simp [Offer.isBack, hfate, h.not_mem_handed ho hnew]
      have hflow : (Offer.accepted (offers ++ [o])).Perm
          (handed ++ (v.submit o.payload).tx.inFlight) := by
        rw [Offer.accepted_append, if_pos hfate]
        refine (h.flow.append_right _).trans ?_
        simp only [inFlight, waiting, submit, List.append_assoc]
        exact (List.perm_append_comm.append_left _).append_left _
      simp only [hback, Bool.false_eq_true, if_false, SendView.offer, hfate] at hmem ⊢
      exact { h with distinct := hdistinct, owned := howned, flow := hflow, mem_back := hmem }
  | refused | dropped =>
      have hback : o.isBack handed = true := by simp [Offer.isBack, hfate]
      obtain ⟨hnodup, hreleased, hreturned⟩ := h.give ho (h.not_mem_back hnew)
      simp only [hback, if_true, SendView.offer, hfate] at hmem ⊢
      exact { h with
        released := hreleased
        distinct := hdistinct
        owned := howned
        flow := hflow (by simp [hfate])
        nodup_back := hnodup
        mem_back := hmem
        returned := hreturned }
  | kept =>
      have hback : o.isBack handed = false := by simp [Offer.isBack, hfate]
      simp only [hback, Bool.false_eq_true, if_false, SendView.offer, hfate] at hmem ⊢
      exact { h with
        distinct := hdistinct
        owned := howned
        flow := hflow (by simp [hfate])
        mem_back := hmem }

theorem complete (h : Custody start offers handed back v) (ha : a ∈ v.tx.outstanding)
    (hroom : v.tx.done.length < poolSlots) :
    Custody start offers handed back (v.complete a) := by
  have hone : buffersOf [.ok (some a)] = [a] := rfl
  have hflight : v.tx.inFlight.Perm (v.complete a).tx.inFlight := by
    simp only [inFlight, waiting, SendView.complete, buffersOf_append, hone]
    rw [← List.append_assoc]
    refine ((List.perm_cons_erase ha).append_right _).trans ?_
    exact (List.perm_append_singleton a _).symm
  have hgive : v.tx.done.length + 1 ≤ v.tx.completions.give.2.count := by
    unfold CompletionCounter.give
    split
    · exact Nat.succ_le_succ h.done_le
    · next hfull =>
        rw [h.max_eq] at hfull
        exact Nat.le_trans hroom (Nat.not_lt.mp hfull)
  exact { h with
    max_eq := v.tx.completions.max_give.trans h.max_eq
    done_eq := by
      simp only [SendView.complete, waiting, buffersOf_append, hone, List.map_append]
      rw [← waiting, ← h.done_eq]
      rfl
    done_le := by
      simp only [SendView.complete, List.length_append]
      exact hgive
    flow := h.flow.trans (hflight.append_left _) }

theorem mem_back_reclaim (h : Custody start offers handed back v) (ho : o ∈ offers)
    (hfate : o.fate = .accepted) (i : UInt16) : i ∈ back ++ [o.index] ↔
      ∃ o' ∈ offers, o'.index = i ∧ o'.isBack (handed ++ [o.payload]) = true := by
  rw [List.mem_append, List.mem_singleton, h.mem_back i]
  constructor
  · rintro (⟨o', ho', hindex, hback⟩ | rfl)
    · exact ⟨o', ho', hindex, Offer.isBack_append hback _⟩
    · exact ⟨o, ho, rfl, by simp [Offer.isBack, hfate]⟩
  · rintro ⟨o', ho', rfl, hback⟩
    rcases Offer.isBack_of_isBack_append hback with hold | ⟨-, hpayload⟩
    · exact Or.inl ⟨o', ho', rfl, hold⟩
    · exact Or.inr (congrArg Offer.index (h.eq_of_payload ho' ho hpayload))

theorem inFlight_perm {rest : List TxAnswer} (handed : List Addr)
    (hdone : v.tx.done = .ok (some a) :: rest) : (handed ++ v.tx.inFlight).Perm
      (handed ++ [a] ++ (v.tx.outstanding ++ buffersOf rest)) := by
  have hwaiting : v.tx.waiting = a :: buffersOf rest := by
    rw [waiting, hdone]
    rfl
  rw [inFlight, hwaiting, List.append_assoc]
  exact List.perm_middle.append_left _

/-- A frame that the engine has to report is that of one offer, whose buffer is not back yet. -/
theorem exists_offer {rest : List TxAnswer} (h : Custody start offers handed back v)
    (hdone : v.tx.done = .ok (some a) :: rest) :
    ∃ o ∈ offers, o.fate = .accepted ∧ o.payload = a ∧ o.index ∉ back := by
  have hflight := inFlight_perm handed hdone
  have hnew : a ∉ handed := by
    have hparts := List.nodup_append'.mp (hflight.nodup_iff.mp h.nodup_flow)
    exact fun hhanded => (List.nodup_append'.mp hparts.1).2.2 hhanded List.mem_cons_self
  obtain ⟨o, ho, hfate, rfl⟩ : ∃ o ∈ offers, o.fate = .accepted ∧ o.payload = a := by
    refine Offer.mem_accepted.mp (h.flow.mem_iff.mpr (hflight.mem_iff.mpr ?_))
    simp
  refine ⟨o, ho, hfate, rfl, fun hback => ?_⟩
  obtain ⟨o', ho', hindex, hisBack⟩ := (h.mem_back _).mp hback
  obtain rfl := h.eq_of_index ho' ho hindex
  simp [Offer.isBack, hfate, hnew] at hisBack

theorem lookup_payload (h : Custody start offers handed back v) (ho : o ∈ offers) :
    ∃ buffer, v.arena.lookup o.payload = some buffer ∧ buffer.index = o.index := by
  have howned := h.owned o ho
  have hlookup : v.arena.lookup o.payload = start.arena.descriptor o.index := by
    rw [← h.returned.sameSlots.lookup_eq, howned.lookup]
  rw [Arena.descriptor_of_lt (h.wellFormed.lt_of_isInUse howned.isInUse)] at hlookup
  exact ⟨_, hlookup, rfl⟩

/-- The driver takes a completion off the counter and the engine hands its frame back: it leads to
the buffer of one offer, which goes back to the arena. -/
theorem reclaim {rest : List TxAnswer} (h : Custody start offers handed back v)
    (hdone : v.tx.done = .ok (some a) :: rest) : ∃ i buffer,
    v.arena.lookup a = some buffer ∧ buffer.index = i ∧
      Custody start offers (handed ++ [a]) (back ++ [i])
        ((v.take.handBack a rest).release i) := by
  obtain ⟨o, ho, hfate, rfl, hout⟩ := h.exists_offer hdone
  obtain ⟨buffer, hlookup, hindex⟩ := h.lookup_payload ho
  obtain ⟨hnodup, hreleased, hreturned⟩ := h.give (h.owned o ho) hout
  refine ⟨o.index, buffer, hlookup, hindex, ?_⟩
  exact { h with
    max_eq := v.tx.completions.max_take.trans h.max_eq
    done_eq := by
      have htail := h.done_eq
      rw [waiting, hdone] at htail
      exact (List.cons.inj htail).2
    done_le := by
      have hle : rest.length + 1 ≤ v.tx.completions.count := by simpa [hdone] using h.done_le
      have hpos : 0 < v.tx.completions.count := Nat.lt_of_lt_of_le (Nat.succ_pos _) hle
      have htake : v.tx.completions.take.2.count = v.tx.completions.count - 1 := by
        simp [CompletionCounter.take, hpos]
      show rest.length ≤ v.tx.completions.take.2.count
      omega
    handedBack := by
      show v.tx.handedBack ++ [o.payload] = _
      rw [h.handedBack, List.append_assoc]
    released := hreleased
    flow := h.flow.trans (inFlight_perm handed hdone)
    nodup_back := hnodup
    mem_back := h.mem_back_reclaim ho hfate
    returned := hreturned }

theorem take (h : Custody start offers handed back v) (hdone : v.tx.done = []) :
    Custody start offers handed back v.take :=
  { h with
    max_eq := v.tx.completions.max_take.trans h.max_eq
    done_le := by
      show v.tx.done.length ≤ _
      rw [hdone]
      exact Nat.zero_le _ }

/-- The counter may be ahead of the engine. -/
theorem count (h : Custody start offers handed back v) :
    Custody start offers handed back v.count := by
  have hcount : v.tx.completions.count ≤ v.tx.completions.give.2.count := by
    unfold CompletionCounter.give
    split
    · exact Nat.le_succ _
    · exact Nat.le_refl _
  exact { h with
    max_eq := v.tx.completions.max_give.trans h.max_eq
    done_le := Nat.le_trans h.done_le hcount }

end Custody

end XgmacDriver

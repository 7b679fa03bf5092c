import XgmacDriver.Proofs.ArenaStack
import XgmacDriver.Proofs.LockWait
import XgmacDriver.Proofs.OutputRuns
import XgmacDriver.Proofs.TransmitLedger

/-! # What a reclaim does with the answers of the engine

A reclaim asks the engine once for each completion that was counted, and it asks no more after an
error. Every buffer that the engine names is offered to its owner once: to the transmit pool if
frames are copied, else to the stack. What the reclaim returns is the number of those that were
taken. The answers, the addresses in them and whoever holds the lock of the pool are arbitrary.
-/

namespace XgmacDriver

variable {σ : Type} {c : Collaborators σ} {m m' : Machine σ}

namespace Engine

/-- The answer to question `i` about completed transmissions, counted from now on. -/
def answer (e : Engine) (i : Nat) : TxAnswer := e.done.getD i (.ok none)

/-- How often the engine is asked for `count` completions: up to the first error, if it comes. -/
def questions (e : Engine) (count : Nat) : Nat :=
  match e.done.findIdx? fun answer => !answer.isOk with
  | some i => min count (i + 1)
  | none => count

def answers (e : Engine) (n : Nat) : List TxAnswer := (List.range n).map e.answer

theorem answers_succ (e : Engine) (n : Nat) :
    e.answers (n + 1) = e.nextDone.1 :: e.nextDone.2.answers n := by
  rw [answers, List.range_succ_eq_map, List.map_cons, List.map_map]
  cases hdone : e.done with
  | nil => simp [answers, answer, nextDone, hdone]
  | cons first rest => simp [answers, answer, nextDone, hdone]

@[simp] theorem questions_zero (e : Engine) : e.questions 0 = 0 := by
  unfold questions
  split
  · exact Nat.zero_min _
  · rfl

theorem questions_succ (e : Engine) (n : Nat) :
    e.questions (n + 1) = if e.nextDone.1.isOk then e.nextDone.2.questions n + 1 else 1 := by
  cases hdone : e.done with
  | nil => simp [questions, nextDone, hdone, Except.isOk, Except.toBool]
  | cons first rest =>
      cases hfirst : first.isOk with
      | false => simp [questions, nextDone, hdone, List.findIdx?_cons, hfirst]
      | true =>
          cases hrest : rest.findIdx? fun answer => !answer.isOk with
          | none => simp [questions, nextDone, hdone, List.findIdx?_cons, hfirst, hrest]
          | some i => simp [questions, nextDone, hdone, List.findIdx?_cons, hfirst, hrest]

end Engine

namespace Pool

/-- What the release of some addresses leaves behind, and how each of them went. -/
structure Releases where
  results : List (Except DriverError Unit)
  pool : Pool
  memory : Memory
  clock : Clock

def releaseAll (lock : Lock) : List Addr → Pool → Clock → Memory → Releases
  | [], p, clock, memory => ⟨[], p, memory, clock⟩
  | a :: as, p, clock, memory =>
      let reply := p.release a lock clock memory
      let rest := releaseAll lock as reply.pool reply.clock reply.memory
      { rest with results := reply.result :: rest.results }

variable {lock : Lock} {p : Pool} {clock : Clock} {memory : Memory}

theorem releaseAll_append (as bs : List Addr) :
    let first := p.releaseAll lock as clock memory
    let second := first.pool.releaseAll lock bs first.clock first.memory
    p.releaseAll lock (as ++ bs) clock memory =
      { second with results := first.results ++ second.results } := by
  induction as generalizing p clock memory with
  | nil => rfl
  | cons a as ih => simp only [List.cons_append, releaseAll, ih]

theorem clock_release (a : Addr) :
    (p.release a lock clock memory).clock = (lock.obtain clock).2 := by
  rcases hobtain : lock.obtain clock with ⟨_ | _, after⟩
  · rw [release_of_not_obtain hobtain]
  · rw [release_of_obtain hobtain]

end Pool

/-- An answer about a completed transmission, and what the stack said to the buffer in it. -/
structure Inquiry where
  answer : TxAnswer
  owner : Option NetworkBuffer
  accepted : Bool

namespace Inquiry

def exchanges (q : Inquiry) : List Exchange :=
  .nextTransmitted q.answer :: match q.answer with
    | .ok (some a) => .lookup a q.owner :: match q.owner with
        | some buffer => [.releaseBuffer buffer.index q.accepted]
        | none => []
    | _ => []

/-- Whether the answer has a buffer that belongs to a descriptor. -/
def isOwned (q : Inquiry) : Bool :=
  match q.answer with
  | .ok (some _) => q.owner.isSome
  | _ => false

end Inquiry

/-! ## The run of a reclaim -/

/-- The machine once the engine has been asked for one of the counted completions. -/
def Machine.questioned (m : Machine σ) : Machine σ :=
  { m with
    interface := m.interface.mapNotifier Notifier.takeCompletion
    trace := m.trace.push (.nextTransmitted m.engine.nextDone.1)
    engine := m.engine.nextDone.2 }

def Machine.txReleases (m : Machine σ) (c : Collaborators σ) (as : List Addr) : Pool.Releases :=
  m.interface.txPool.releaseAll (c.lock .tx m.world) as m.clock m.memory

/-- A machine is as some releases to the transmit pool have left it. -/
structure Machine.HasReleased (m : Machine σ) (released : Pool.Releases) : Prop where
  txPool_eq : m.interface.txPool = released.pool
  memory_eq : m.memory = released.memory
  clock_eq : m.clock = released.clock

theorem Machine.HasReleased.txReleases_append {as : List Addr}
    (h : m'.HasReleased (m.txReleases c as)) (hworld : m'.world = m.world) (bs : List Addr) :
    m.txReleases c (as ++ bs) =
      { m'.txReleases c bs with
        results := (m.txReleases c as).results ++ (m'.txReleases c bs).results } := by
  rw [txReleases, txReleases, h.txPool_eq, h.memory_eq, h.clock_eq, hworld]
  exact Pool.releaseAll_append as bs

/-- What becomes of an answer, and whether it has brought a buffer back to its owner. -/
inductive Answered (c : Collaborators σ) (m : Machine σ) : TxAnswer → Bool → Machine σ → Prop
  | failed {status : EngineStatus} {log : Array LogEntry} :
      Answered c m (.error status) false { m with log }
  | idle : Answered c m (.ok none) false m
  | pooled {a : Addr} {reply : Pool.Reply Unit} {log : Array LogEntry} :
      m.interface.config.zeroCopyTx = false →
      m.interface.txPool.release a (c.lock .tx m.world) m.clock m.memory = reply →
      Answered c m (.ok (some a)) reply.result.isOk { m.withReply reply with log }
  | owned {a : Addr} {buffer : NetworkBuffer} {accepted : Bool} {world' world : σ} :
      m.interface.config.zeroCopyTx = true → c.lookup a m.world = (some buffer, world') →
      c.releaseBuffer buffer.index world' = (accepted, world) →
      Answered c m (.ok (some a)) true { m with
        trace := (m.trace.push (.lookup a (some buffer))).push
          (.releaseBuffer buffer.index accepted)
        world }
  | stray {a : Addr} {world : σ} {log : Array LogEntry} :
      m.interface.config.zeroCopyTx = true → c.lookup a m.world = (none, world) →
      Answered c m (.ok (some a)) false { m with
        trace := m.trace.push (.lookup a none), world, log }

/-- Nothing that an answer leads to concerns the engine, the completions or the mode. -/
theorem Answered.kept {answer : TxAnswer} {taken : Bool} (h : Answered c m answer taken m') :
    m'.engine = m.engine ∧ m'.interface.notifier = m.interface.notifier ∧
      m'.interface.config = m.interface.config := by
  cases h with
  | failed => exact ⟨rfl, rfl, rfl⟩
  | idle => exact ⟨rfl, rfl, rfl⟩
  | pooled => exact ⟨rfl, rfl, rfl⟩
  | owned => exact ⟨rfl, rfl, rfl⟩
  | stray => exact ⟨rfl, rfl, rfl⟩

/-- A reclaim by its questions: the answer to each, and whether a buffer was taken back. It goes on
while a completion can be taken off the count, unless an error has ended it. -/
inductive ReclaimRun (c : Collaborators σ) :
    Bool → List (TxAnswer × Bool) → Machine σ → Machine σ → Prop
  | ended {going : Bool} {m : Machine σ} :
      (going && m.interface.notifier.completions.take.1) = false → ReclaimRun c going [] m m
  | asked {going taken : Bool} {rest : List (TxAnswer × Bool)} {m m₁ m₂ : Machine σ} :
      m.interface.notifier.completions.take.1 = true →
      Answered c m.questioned m.engine.nextDone.1 taken m₁ →
      m.engine.nextDone.1.isOk = going → ReclaimRun c going rest m₁ m₂ →
      ReclaimRun c true ((m.engine.nextDone.1, taken) :: rest) m m₂

namespace Driver

theorem run_returnSent (c : Collaborators σ) (a : Addr) (m : Machine σ) :
    ∃ taken m', (returnSent c a).run m = pure (taken, m') ∧
      Answered c m (.ok (some a)) taken m' := by
  cases hmode : m.interface.config.zeroCopyTx with
  | true =>
      rcases hlookup : c.lookup a m.world with ⟨_ | buffer, world⟩
      · have hrun : ∃ log, (returnSent c a).run m = pure (false, { m with
            trace := m.trace.push (.lookup a none), world, log }) := by
          simp only [returnSent, StateT.run_bind, run_config, pure_bind, hmode, if_true, run_lookup,
            hlookup, run_report]
          exact ⟨_, rfl⟩
        obtain ⟨log, hrun⟩ := hrun
        exact ⟨_, _, hrun, .stray hmode hlookup⟩
      · rcases hrelease : c.releaseBuffer buffer.index world with ⟨accepted, world'⟩
        have hrun : (returnSent c a).run m = pure (true, { m with
            trace := (m.trace.push (.lookup a (some buffer))).push
              (.releaseBuffer buffer.index accepted)
            world := world' }) := by
          simp only [returnSent, StateT.run_bind, run_config, pure_bind, hmode, if_true, run_lookup,
            hlookup, run_releaseBuffer, hrelease]
          rfl
        exact ⟨_, _, hrun, .owned hmode hlookup hrelease⟩
  | false =>
      obtain ⟨reply, hreply⟩ : ∃ reply, m.interface.txPool.release a (c.lock .tx m.world) m.clock
        m.memory = reply := ⟨_, rfl⟩
      have hslot : (releaseSlot c .tx a).run m = pure (reply.result, m.withReply reply) := by
        rw [← hreply]
        rfl
      have hrun : ∃ log, (returnSent c a).run m =
          pure (reply.result.isOk, { m.withReply reply with log }) := by
        simp only [returnSent, StateT.run_bind, run_config, pure_bind, hmode, Bool.false_eq_true,
          if_false, hslot]
        cases reply.result with
        | ok => exact ⟨_, rfl⟩
        | error e => exact ⟨_, rfl⟩
      obtain ⟨log, hrun⟩ := hrun
      exact ⟨_, _, hrun, .pooled hmode hreply⟩

/-- What a reclaim does with an answer when `count` completions are left. -/
def settleAnswer (c : Collaborators σ) (reclaimed count : Nat) : TxAnswer → Driver σ Nat
  | .error status => do
      report (.completionFailed status)
      return reclaimed
  | .ok none => reclaimCounted c reclaimed count
  | .ok (some a) => do
      let returned ← returnSent c a
      reclaimCounted c (if returned then reclaimed + 1 else reclaimed) count

theorem run_reclaimCounted_succ (reclaimed count : Nat) (m : Machine σ) :
    (reclaimCounted c reclaimed (count + 1)).run m =
      (settleAnswer c reclaimed count m.engine.nextDone.1).run m.questioned := by
  simp only [reclaimCounted, StateT.run_bind, run_modifyInterface, pure_bind, run_nextTransmitted]
  rfl

theorem run_settleAnswer (c : Collaborators σ) (reclaimed count : Nat) (answer : TxAnswer)
    (m : Machine σ) : ∃ taken m', Answered c m answer taken m' ∧
      (settleAnswer c reclaimed count answer).run m =
        let reclaimed := if taken then reclaimed + 1 else reclaimed
        if answer.isOk then (reclaimCounted c reclaimed count).run m'
        else pure (reclaimed, m') := by
  rcases answer with status | _ | a
  · exact ⟨_, _, .failed, rfl⟩
  · exact ⟨_, _, .idle, rfl⟩
  · obtain ⟨taken, m', hreturn, hanswered⟩ := run_returnSent c a m
    refine ⟨taken, m', hanswered, ?_⟩
    rw [settleAnswer, StateT.run_bind, hreturn, pure_bind]
    rfl

theorem reclaimRun (c : Collaborators σ) {count : Nat} (reclaimed : Nat)
    (hcount : m.interface.notifier.completions.count = count) :
    ∃ asked, ReclaimRun c true asked m ((reclaimCounted c reclaimed count).run m).2 ∧
      asked.length = m.engine.questions count ∧
      ((reclaimCounted c reclaimed count).run m).1 = reclaimed + asked.countP Prod.snd := by
  -- What is left of the recursion is what is left on the count, so it ends where the loop does.
  induction count generalizing reclaimed m with
  | zero =>
      have hended : m.interface.notifier.completions.take.1 = false := by
        rw [← Bool.not_eq_true, CompletionCounter.take_fst_iff]
        omega
      exact ⟨[], .ended hended, m.engine.questions_zero.symm, rfl⟩
  | succ count ih =>
      have hgoing : m.interface.notifier.completions.take.1 = true := by
        rw [CompletionCounter.take_fst_iff]
        omega
      have hleft : m.questioned.interface.notifier.completions.count = count := by
        have htake := m.interface.notifier.completions.count_take
        rw [hgoing, if_pos rfl] at htake
        exact Nat.succ.inj (htake.trans hcount)
      obtain ⟨taken, m₁, hanswered, hrun⟩ :=
        run_settleAnswer c reclaimed count m.engine.nextDone.1 m.questioned
      obtain ⟨hengine, hnotifier, -⟩ := hanswered.kept
      rw [run_reclaimCounted_succ, hrun, Engine.questions_succ]
      cases hfurther : m.engine.nextDone.1.isOk with
      | false =>
          refine ⟨_, .asked hgoing hanswered hfurther (.ended rfl), rfl, ?_⟩
          cases taken with
          | false => rfl
          | true => rfl
      | true =>
          obtain ⟨asked, hasked, hlength, hresult⟩ :=
            ih (m := m₁) (if taken then reclaimed + 1 else reclaimed) (hnotifier ▸ hleft)
          refine ⟨_, .asked hgoing hanswered hfurther hasked, ?_, ?_⟩
          · rw [List.length_cons, hlength, hengine]
            rfl
          · refine hresult.trans ?_
            rw [List.countP_cons]
            split
            · omega
            · omega

end Driver

/-! ## What a reclaim leaves behind -/

namespace ReclaimRun

variable {going : Bool} {asked : List (TxAnswer × Bool)}

theorem answers_eq (h : ReclaimRun c going asked m m') :
    asked.map Prod.fst = m.engine.answers asked.length := by
  induction h with
  | ended => rfl
  | asked _ hanswered _ _ ih =>
      rw [List.map_cons, ih, hanswered.kept.1, List.length_cons, Engine.answers_succ]
      rfl

theorem completions_eq (h : ReclaimRun c going asked m m') :
    m'.interface.notifier.completions.count + asked.length =
      m.interface.notifier.completions.count := by
  induction h with
  | ended => rfl
  | @asked _ _ rest m m₁ m₂ hgoing hanswered _ _ ih =>
      have htake := m.interface.notifier.completions.count_take
      rw [hgoing, if_pos rfl] at htake
      have htaken : m₁.interface.notifier.completions.count + 1 =
          m.interface.notifier.completions.count := by
        rw [hanswered.kept.2.1]
        exact htake
      rw [List.length_cons]
      omega

end ReclaimRun

section

open TxView (buffersOf buffersOf_cons)

variable {answer : TxAnswer} {going taken : Bool} {asked : List (TxAnswer × Bool)}

theorem Answered.hasReleased (h : Answered c m answer taken m')
    (hmode : m.interface.config.zeroCopyTx = false) :
    m'.trace = m.trace ∧ m'.world = m.world ∧ m'.HasReleased (m.txReleases c (buffersOf [answer])) ∧
      [taken].countP id = (m.txReleases c (buffersOf [answer])).results.countP Except.isOk := by
  cases h with
  | failed => exact ⟨rfl, rfl, ⟨rfl, rfl, rfl⟩, rfl⟩
  | idle => exact ⟨rfl, rfl, ⟨rfl, rfl, rfl⟩, rfl⟩
  | pooled _ hreply =>
      subst hreply
      exact ⟨rfl, rfl, ⟨rfl, rfl, rfl⟩, rfl⟩
  | owned hzero => cases hmode.symm.trans hzero
  | stray hzero => cases hmode.symm.trans hzero

theorem Answered.inquired (h : Answered c m.questioned m.engine.nextDone.1 taken m')
    (hmode : m.interface.config.zeroCopyTx = true) :
    ∃ q : Inquiry, q.answer = m.engine.nextDone.1 ∧ q.isOwned = taken ∧
      m'.trace.toList = m.trace.toList ++ q.exchanges ∧
      m'.interface.txPool = m.interface.txPool := by
  have hasked : m.questioned.trace.toList =
      m.trace.toList ++ [.nextTransmitted m.engine.nextDone.1] := Array.toList_push
  generalize m.engine.nextDone.1 = answer at h hasked
  cases h with
  | failed => exact ⟨⟨_, none, false⟩, rfl, rfl, hasked, rfl⟩
  | idle => exact ⟨⟨_, none, false⟩, rfl, rfl, hasked, rfl⟩
  | pooled hcopying => cases hmode.symm.trans hcopying
  | @owned a buffer accepted =>
      refine ⟨⟨_, some buffer, accepted⟩, rfl, rfl, ?_, rfl⟩
      simp [Inquiry.exchanges, hasked]
  | stray =>
      refine ⟨⟨_, none, false⟩, rfl, rfl, ?_, rfl⟩
      simp [Inquiry.exchanges, hasked]

theorem Answered.slept (h : Answered c m answer taken m') (hnap : 0 < m.clock.nap) :
    ∃ n ≤ (buffersOf [answer]).length * m.clock.patience, m'.clock = m.clock.slept n := by
  cases h with
  | failed => exact ⟨0, Nat.zero_le _, rfl⟩
  | idle => exact ⟨0, Nat.zero_le _, rfl⟩
  | @pooled a reply _ _ hreply =>
      subst hreply
      obtain ⟨n, hn, -, hslept⟩ := (c.lock .tx m.world).exists_waitEnds hnap
      refine ⟨n, ?_, (Pool.clock_release a).trans hslept⟩
      rw [show (buffersOf [.ok (some a)]).length = 1 from rfl, Nat.one_mul]
      exact hn
  | owned => exact ⟨0, Nat.zero_le _, rfl⟩
  | stray => exact ⟨0, Nat.zero_le _, rfl⟩

namespace ReclaimRun

theorem hasReleased (h : ReclaimRun c going asked m m')
    (hmode : m.interface.config.zeroCopyTx = false) :
    m'.trace.toList = m.trace.toList ++ (asked.map Prod.fst).map .nextTransmitted ∧
      m'.HasReleased (m.txReleases c (buffersOf (asked.map Prod.fst))) ∧
      asked.countP Prod.snd =
        (m.txReleases c (buffersOf (asked.map Prod.fst))).results.countP Except.isOk := by
  induction h with
  | ended => exact ⟨(List.append_nil _).symm, ⟨rfl, rfl, rfl⟩, rfl⟩
  | @asked _ taken rest m m₁ m₂ _ hanswered _ _ ih =>
      obtain ⟨htrace, hworld, hfirst, htaken⟩ := hanswered.hasReleased hmode
      have hconfig : m₁.interface.config = m.interface.config := hanswered.kept.2.2
      obtain ⟨htraces, hlater, hrest⟩ := ih (hconfig ▸ hmode)
      have hquestion : m₁.trace.toList =
          m.trace.toList ++ [.nextTransmitted m.engine.nextDone.1] := by
        rw [htrace]
        exact Array.toList_push
      have hreleases := hfirst.txReleases_append hworld (buffersOf (rest.map Prod.fst))
      rw [← buffersOf_cons] at hreleases
      rw [List.map_cons, show m.txReleases c (buffersOf (_ :: _)) = _ from hreleases]
      refine ⟨?_, ⟨hlater.txPool_eq, hlater.memory_eq, hlater.clock_eq⟩, ?_⟩
      · rw [htraces, hquestion, List.append_assoc, List.map_cons, List.singleton_append]
      · rw [List.countP_append, ← hrest, ← htaken, List.countP_cons, List.countP_singleton,
          Nat.add_comm]
        rfl

theorem inquired (h : ReclaimRun c going asked m m')
    (hmode : m.interface.config.zeroCopyTx = true) :
    ∃ qs : List Inquiry, qs.map Inquiry.answer = asked.map Prod.fst ∧
      qs.map Inquiry.isOwned = asked.map Prod.snd ∧
      m'.trace.toList = m.trace.toList ++ qs.flatMap Inquiry.exchanges ∧
      m'.interface.txPool = m.interface.txPool := by
  induction h with
  | ended => exact ⟨[], rfl, rfl, (List.append_nil _).symm, rfl⟩
  | @asked _ taken rest m m₁ m₂ _ hanswered _ _ ih =>
      obtain ⟨q, hanswer, howned, htrace, hpool⟩ := hanswered.inquired hmode
      have hconfig : m₁.interface.config = m.interface.config := hanswered.kept.2.2
      obtain ⟨qs, hanswers, howners, htraces, hpools⟩ := ih (hconfig ▸ hmode)
      refine ⟨q :: qs, ?_, ?_, ?_, hpools.trans hpool⟩
      · rw [List.map_cons, hanswer, hanswers, List.map_cons]
      · rw [List.map_cons, howned, howners, List.map_cons]
      · rw [htraces, htrace, List.append_assoc, List.flatMap_cons]

theorem slept (h : ReclaimRun c going asked m m') (hnap : 0 < m.clock.nap) :
    ∃ n ≤ (buffersOf (asked.map Prod.fst)).length * m.clock.patience,
      m'.clock = m.clock.slept n := by
  induction h with
  | ended => exact ⟨0, Nat.zero_le _, rfl⟩
  | @asked _ taken rest m m₁ m₂ _ hanswered _ _ ih =>
      obtain ⟨i, hi, hfirst⟩ : ∃ i ≤ (buffersOf [m.engine.nextDone.1]).length * m.clock.patience,
          m₁.clock = m.clock.slept i := hanswered.slept hnap
      have hnap₁ : m₁.clock.nap = m.clock.nap := by rw [hfirst, Clock.nap_slept]
      have hpatience : m₁.clock.patience = m.clock.patience := by
        rw [Clock.patience, hnap₁, Clock.patience]
      obtain ⟨n, hn, hrest⟩ := ih (hnap₁ ▸ hnap)
      refine ⟨i + n, ?_, ?_⟩
      · rw [List.map_cons, buffersOf_cons, List.length_append, Nat.add_mul]
        rw [hpatience] at hn
        exact Nat.add_le_add hi hn
      · rw [hrest, hfirst, Clock.slept_slept]

end ReclaimRun

namespace Driver

/-- A reclaim comes to its end after one question for each completion, or at the first error, and
takes as many off the count as it has asked. With copying each buffer in the answers is released to
the transmit pool once, in order, and without copying it is offered to the stack once; what is
reclaimed is what the owners have taken. It waits for the lock of the pool at most once for each
buffer. -/
theorem reclaim_settles (c : Collaborators σ) (m : Machine σ)
    (hopen : m.interface.engineOpen = true) (hnap : 0 < m.clock.nap) :
    let count := m.interface.notifier.completions.count
    let n := m.engine.questions count
    let answers := m.engine.answers n
    let reclaimed := ((reclaim c).run m).1
    let m' := ((reclaim c).run m).2
    (∃ asked, ReclaimRun c true asked m m' ∧ asked.map Prod.fst = answers) ∧
      m'.interface.notifier.completions.count + n = count ∧
      (m.interface.config.zeroCopyTx = false →
        m'.trace.toList = m.trace.toList ++ answers.map .nextTransmitted ∧
        m'.HasReleased (m.txReleases c (buffersOf answers)) ∧
        reclaimed = (m.txReleases c (buffersOf answers)).results.countP Except.isOk) ∧
      (m.interface.config.zeroCopyTx = true → ∃ qs : List Inquiry,
        qs.map Inquiry.answer = answers ∧
        m'.trace.toList = m.trace.toList ++ qs.flatMap Inquiry.exchanges ∧
        m'.interface.txPool = m.interface.txPool ∧
        reclaimed = qs.countP Inquiry.isOwned) ∧
      ∃ naps ≤ (buffersOf answers).length * (1000 / m.clock.nap + 1),
        m'.clock = m.clock.slept naps := by
  intro count n answers reclaimed m'
  have hrun : (reclaim c).run m = (reclaimCounted c 0 count).run m := by
    simp [reclaim, hopen, count]
  have hcount : m.interface.notifier.completions.count = count := rfl
  obtain ⟨asked, hasked, hlength, hresult⟩ := reclaimRun c 0 hcount
  rw [Nat.zero_add] at hresult
  rw [← hrun] at hasked hresult
  have hanswers : asked.map Prod.fst = answers := by
    rw [hasked.answers_eq, hlength]
  refine ⟨⟨asked, hasked, hanswers⟩, ?_, ?_, ?_, ?_⟩
  · have hleft := hasked.completions_eq
    rwa [hlength] at hleft
  · intro hmode
    obtain ⟨htrace, hreleased, htaken⟩ := hasked.hasReleased hmode
    rw [hanswers] at htrace hreleased htaken
    exact ⟨htrace, hreleased, hresult.trans htaken⟩
  · intro hmode
    obtain ⟨qs, hqs, howned, htrace, hpool⟩ := hasked.inquired hmode
    refine ⟨qs, hqs.trans hanswers, htrace, hpool, ?_⟩
    calc reclaimed = asked.countP Prod.snd := hresult
      _ = (asked.map Prod.snd).countP id := by rw [List.countP_map, Function.id_comp]
      _ = (qs.map Inquiry.isOwned).countP id := by rw [howned]
      _ = qs.countP Inquiry.isOwned := by rw [List.countP_map, Function.id_comp]
  · rw [← hanswers]
    exact hasked.slept hnap

/-- One of two slots is out, and the engine names it after an address that is no slot and before it
fails. -/
def beforeReclaim : Machine Arena where
  interface :=
    { index := 0
      config := {}
      engineOpen := true
      txPool := (Pool.twoSlots.acquire 64 .free (.startingAt 0 0) .zeroed).pool
      notifier := { Notifier.new poolSlots with completions := ⟨6, poolSlots⟩ } }
  engine := { done := [.ok none, .ok (some (Pool.smallRegion.add 1)), .ok (some Pool.smallRegion),
    .error ⟨-1⟩, .ok (some Pool.smallRegion)] }
  clock := .startingAt 0 0
  memory := .zeroed
  trace := #[]
  log := #[]
  world := .ofRegion regionStart 2 2048

theorem reclaim_settles_before_error :
    let r := (reclaim (.ofArena (.ok ()) true)).run beforeReclaim
    0 < beforeReclaim.clock.nap ∧ r.1 = 1 ∧ r.2.interface.notifier.completions.count = 2 ∧
      r.2.trace.toList = [.nextTransmitted (.ok none),
        .nextTransmitted (.ok (some (Pool.smallRegion.add 1))),
        .nextTransmitted (.ok (some Pool.smallRegion)), .nextTransmitted (.error ⟨-1⟩)] := by
  have hnap : 0 < beforeReclaim.clock.nap := by decide
  obtain ⟨-, hcount, hcopying, -⟩ :=
    reclaim_settles (.ofArena (.ok ()) true) beforeReclaim rfl hnap
  obtain ⟨htrace, -, hreclaimed⟩ := hcopying rfl
  refine ⟨hnap, hreclaimed.trans ?_, ?_, htrace⟩
  · decide +kernel
  · exact Nat.add_right_cancel hcount

end Driver

end

end XgmacDriver

import Mathlib.Data.List.Induction
import XgmacDriver.Dma.Fault
import XgmacDriver.Event.Word

/-! # What interrupts leave in a word

The words of several interrupts are combined by OR. The three bits then say which kinds of interrupt
there were. The codes of all faults are merged in one byte, and so are their channels: the two bytes
are exact for a single fault, while those of several faults need not be the bytes of any of them.
-/

namespace XgmacDriver

namespace Interrupt

def fault? : Interrupt → Option (UInt8 × UInt8)
  | fault code channel => some (code, channel)
  | _ => none

def faults (is : List Interrupt) : List (UInt8 × UInt8) := is.filterMap fault?

theorem faults_concat (is : List Interrupt) (i : Interrupt) :
    faults (is ++ [i]) = faults is ++ i.fault?.toList := by
  rw [faults, List.filterMap_append]
  cases i <;> rfl

theorem mem_faults {is : List Interrupt} {code channel : UInt8} :
    (code, channel) ∈ faults is ↔ fault code channel ∈ is := by
  rw [faults, List.mem_filterMap]
  constructor
  · rintro ⟨i, hi, heq⟩
    cases i with
    | fault _ _ => cases heq; exact hi
    | _ => cases heq
  · exact fun h => ⟨_, h, rfl⟩

end Interrupt

namespace DmaFault

theorem code_le (f : DmaFault) : f.code ≤ 7 := by cases f <;> decide

theorem exists_code_eq {code : UInt8} (h : code ≤ 7) : ∃ f : DmaFault, f.code = code := by
  have hall : ∀ n < 8, ∃ f ∈ all, f.code = UInt8.ofNat n := by decide
  have hlt : code.toNat < 8 := Nat.lt_succ_of_le (UInt8.le_iff_toNat_le.mp h)
  obtain ⟨f, -, hf⟩ := hall code.toNat hlt
  exact ⟨f, hf.trans UInt8.ofNat_toNat⟩

theorem ofCode?_eq_none_iff {code : UInt8} : ofCode? code = none ↔ 7 < code := by
  constructor
  · intro hnone
    refine UInt8.not_le.mp fun hle => ?_
    obtain ⟨f, rfl⟩ := exists_code_eq hle
    rw [ofCode?_code] at hnone
    cases hnone
  · intro hlt
    refine Option.eq_none_iff_forall_ne_some.mpr fun f hf => ?_
    rw [ofCode?_eq_some_iff] at hf
    exact UInt8.not_le.mpr hlt (hf ▸ f.code_le)

end DmaFault

/-! ## Merged bytes -/

def merged (bs : List UInt8) : UInt8 := bs.foldl (· ||| ·) 0

theorem merged_concat (bs : List UInt8) (b : UInt8) : merged (bs ++ [b]) = merged bs ||| b := by
  rw [merged, List.foldl_append]
  rfl

theorem merged_append (as bs : List UInt8) : merged (as ++ bs) = merged as ||| merged bs := by
  induction bs using List.reverseRecOn with
  | nil => rw [List.append_nil]; exact UInt8.or_zero.symm
  | append_singleton bs b ih =>
      rw [← List.append_assoc, merged_concat, ih, merged_concat, UInt8.or_assoc]

theorem or_merged_of_mem {bs : List UInt8} {b : UInt8} (h : b ∈ bs) :
    b ||| merged bs = merged bs := by
  induction bs using List.reverseRecOn with
  | nil => cases h
  | append_singleton bs a ih =>
      rw [merged_concat]
      rcases List.mem_append.mp h with hb | hb
      · rw [← UInt8.or_assoc, ih hb]
      · obtain rfl := List.mem_singleton.mp hb
        rw [UInt8.or_comm (merged bs), ← UInt8.or_assoc, UInt8.or_self]

theorem merged_eq_of_forall_or {bs : List UInt8} {b : UInt8} (hb : b ∈ bs)
    (h : ∀ a ∈ bs, a ||| b = b) : merged bs = b := by
  have hcovered : ∀ as : List UInt8, (∀ a ∈ as, a ||| b = b) → merged as ||| b = b := by
    intro as
    induction as using List.reverseRecOn with
    | nil => exact fun _ => UInt8.zero_or
    | append_singleton as a ih =>
        intro has
        rw [merged_concat, UInt8.or_assoc, has a (List.mem_append_right _ List.mem_cons_self)]
        exact ih fun a' ha' => has a' (List.mem_append_left _ ha')
  rw [← hcovered bs h, UInt8.or_comm, or_merged_of_mem hb]

theorem or_le_seven {a b : UInt8} : a ||| b ≤ 7 ↔ a ≤ 7 ∧ b ≤ 7 := by
  simp only [UInt8.le_iff_toNat_le, UInt8.toNat_or]
  constructor
  · exact fun h => ⟨Nat.le_trans Nat.left_le_or h, Nat.le_trans Nat.right_le_or h⟩
  · rintro ⟨ha, hb⟩
    have hlt : a.toNat ||| b.toNat < 2 ^ 3 :=
      Nat.or_lt_two_pow (Nat.lt_succ_of_le ha) (Nat.lt_succ_of_le hb)
    exact Nat.le_of_lt_succ hlt

/-- Codes with a meaning have a merged code with a meaning, and no code without one gets one by
being merged. -/
theorem merged_le_seven {bs : List UInt8} : merged bs ≤ 7 ↔ ∀ b ∈ bs, b ≤ 7 := by
  induction bs using List.reverseRecOn with
  | nil => exact iff_of_true (by decide) nofun
  | append_singleton bs b ih => simp [merged_concat, or_le_seven, ih, or_imp, forall_and]

namespace EventWord

theorem errCode_or (a b : EventWord) : (a ||| b).errCode = a.errCode ||| b.errCode := by
  rw [errCode, bits_or, UInt32.shiftRight_or, UInt32.toUInt8_or, errCode, errCode]

theorem errChannel_or (a b : EventWord) :
    (a ||| b).errChannel = a.errChannel ||| b.errChannel := by
  rw [errChannel, bits_or, UInt32.shiftRight_or, UInt32.toUInt8_or, errChannel, errChannel]

/-! ## The word of one interrupt -/

def upper (b : UInt8) (shift : UInt32) : EventWord := ⟨b.toUInt32 <<< shift⟩

theorem fault_eq (code channel : UInt8) :
    fault code channel = upper code 24 ||| upper channel 16 ||| ⟨errBit⟩ := rfl

theorem errCode_upper (b : UInt8) : (upper b 24).errCode = b ∧ (upper b 16).errCode = 0 := by
  have hlt := b.toNat_lt
  constructor
  all_goals
    apply UInt8.toNat_inj.mp
    simp [errCode, upper, UInt32.toNat_shiftRight, UInt32.toNat_shiftLeft, Nat.shiftLeft_eq,
      Nat.shiftRight_eq_div_pow]
    omega

theorem errChannel_upper (b : UInt8) :
    (upper b 24).errChannel = 0 ∧ (upper b 16).errChannel = b := by
  have hlt := b.toNat_lt
  constructor
  all_goals
    apply UInt8.toNat_inj.mp
    simp [errChannel, upper, UInt32.toNat_shiftRight, UInt32.toNat_shiftLeft, Nat.shiftLeft_eq,
      Nat.shiftRight_eq_div_pow]
    omega

theorem errCode_fault (code channel : UInt8) : (fault code channel).errCode = code := by
  rw [fault_eq, errCode_or, errCode_or, (errCode_upper code).1, (errCode_upper channel).2,
    UInt8.or_zero]
  exact UInt8.or_zero

theorem errChannel_fault (code channel : UInt8) : (fault code channel).errChannel = channel := by
  rw [fault_eq, errChannel_or, errChannel_or, (errChannel_upper code).1,
    (errChannel_upper channel).2, UInt8.zero_or]
  exact UInt8.or_zero

/-- The upper half has no say in which kinds of event there were. -/
theorem has_upper {b : UInt8} {shift bit : UInt32} (hshift : shift = 24 ∨ shift = 16)
    (hbit : allBits &&& bit = bit) : (upper b shift).has bit = false := by
  have hlow : b.toUInt32 <<< shift &&& allBits = 0 := by
    apply UInt32.toNat_inj.mp
    have hmask : allBits.toNat = 2 ^ 3 - 1 := rfl
    rw [UInt32.toNat_and, hmask, Nat.and_two_pow_sub_one_eq_mod]
    rcases hshift with rfl | rfl
    all_goals
      simp [UInt32.toNat_shiftLeft, Nat.shiftLeft_eq]
      omega
  have hzero : b.toUInt32 <<< shift &&& bit = 0 := by
    rw [← hbit, ← UInt32.and_assoc, hlow, UInt32.zero_and]
  simp [has, upper, hzero]

theorem has_fault (code channel : UInt8) {bit : UInt32} (hbit : allBits &&& bit = bit) :
    (fault code channel).has bit = (⟨errBit⟩ : EventWord).has bit := by
  rw [fault_eq, has_or, has_or, has_upper (Or.inl rfl) hbit, has_upper (Or.inr rfl) hbit]
  rfl

theorem rx_ofInterrupt {i : Interrupt} : (ofInterrupt i).rx = true ↔ i = .received := by
  cases i with
  | received => exact iff_of_true rfl rfl
  | transmitted => exact iff_of_false nofun nofun
  | fault code channel =>
      rw [rx, ofInterrupt, has_fault code channel rfl]
      exact iff_of_false nofun nofun

theorem tx_ofInterrupt {i : Interrupt} : (ofInterrupt i).tx = true ↔ i = .transmitted := by
  cases i with
  | received => exact iff_of_false nofun nofun
  | transmitted => exact iff_of_true rfl rfl
  | fault code channel =>
      rw [tx, ofInterrupt, has_fault code channel rfl]
      exact iff_of_false nofun nofun

theorem err_ofInterrupt (i : Interrupt) : (ofInterrupt i).err = i.fault?.isSome := by
  cases i with
  | received => rfl
  | transmitted => rfl
  | fault code channel => exact has_fault code channel rfl

theorem errCode_ofInterrupt (i : Interrupt) :
    (ofInterrupt i).errCode = merged (i.fault?.toList.map Prod.fst) := by
  cases i with
  | received => rfl
  | transmitted => rfl
  | fault code channel => exact (errCode_fault code channel).trans UInt8.zero_or.symm

theorem errChannel_ofInterrupt (i : Interrupt) :
    (ofInterrupt i).errChannel = merged (i.fault?.toList.map Prod.snd) := by
  cases i with
  | received => rfl
  | transmitted => rfl
  | fault code channel => exact (errChannel_fault code channel).trans UInt8.zero_or.symm

/-! ## The word of many interrupts -/

/-- The word that some interrupts leave behind in a cleared one. -/
def gathered (is : List Interrupt) : EventWord := is.foldl (fun w i => w ||| ofInterrupt i) .none

theorem gathered_concat (is : List Interrupt) (i : Interrupt) :
    gathered (is ++ [i]) = gathered is ||| ofInterrupt i := by
  rw [gathered, List.foldl_append]
  rfl

theorem has_gathered (is : List Interrupt) (bit : UInt32) :
    (gathered is).has bit = is.any fun i => (ofInterrupt i).has bit := by
  induction is using List.reverseRecOn with
  | nil =>
      show (0 &&& bit != 0) = false
      rw [UInt32.zero_and]
      rfl
  | append_singleton is i ih => rw [gathered_concat, has_or, ih, List.any_append]; simp

theorem rx_gathered {is : List Interrupt} : (gathered is).rx = true ↔ .received ∈ is := by
  rw [rx, has_gathered, List.any_eq_true]
  exact ⟨fun ⟨i, hi, hrx⟩ => rx_ofInterrupt.mp hrx ▸ hi, fun h => ⟨_, h, rx_ofInterrupt.mpr rfl⟩⟩

theorem tx_gathered {is : List Interrupt} : (gathered is).tx = true ↔ .transmitted ∈ is := by
  rw [tx, has_gathered, List.any_eq_true]
  exact ⟨fun ⟨i, hi, htx⟩ => tx_ofInterrupt.mp htx ▸ hi, fun h => ⟨_, h, tx_ofInterrupt.mpr rfl⟩⟩

theorem err_gathered {is : List Interrupt} :
    (gathered is).err = true ↔ ∃ code channel, .fault code channel ∈ is := by
  rw [err, has_gathered, List.any_eq_true]
  constructor
  · rintro ⟨i, hi, herr⟩
    have hfault : i.fault?.isSome = true := (err_ofInterrupt i).symm.trans herr
    cases i with
    | fault code channel => exact ⟨code, channel, hi⟩
    | _ => cases hfault
  · rintro ⟨code, channel, h⟩
    exact ⟨_, h, err_ofInterrupt _⟩

theorem gathered_eq_none_iff {is : List Interrupt} : gathered is = .none ↔ is = [] := by
  constructor
  · intro hnone
    refine List.eq_nil_iff_forall_not_mem.mpr fun i hi => ?_
    cases i with
    | received =>
        have hrx := rx_gathered.mpr hi
        rw [hnone] at hrx
        cases hrx
    | transmitted =>
        have htx := tx_gathered.mpr hi
        rw [hnone] at htx
        cases htx
    | fault code channel =>
        have herr := err_gathered.mpr ⟨code, channel, hi⟩
        rw [hnone] at herr
        cases herr
  · rintro rfl
    rfl

/-- A byte of the word that is merged from one of the two data of each fault. -/
theorem byte_gathered {byte : EventWord → UInt8} {datum : UInt8 × UInt8 → UInt8}
    (hnone : byte .none = 0) (hor : ∀ a b, byte (a ||| b) = byte a ||| byte b)
    (hone : ∀ i, byte (ofInterrupt i) = merged (i.fault?.toList.map datum))
    (is : List Interrupt) : byte (gathered is) = merged ((Interrupt.faults is).map datum) := by
  induction is using List.reverseRecOn with
  | nil => exact hnone
  | append_singleton is i ih =>
      rw [gathered_concat, hor, ih, hone, Interrupt.faults_concat, List.map_append, merged_append]

theorem errCode_gathered (is : List Interrupt) :
    (gathered is).errCode = merged ((Interrupt.faults is).map Prod.fst) :=
  byte_gathered rfl errCode_or errCode_ofInterrupt is

theorem errChannel_gathered (is : List Interrupt) :
    (gathered is).errChannel = merged ((Interrupt.faults is).map Prod.snd) :=
  byte_gathered rfl errChannel_or errChannel_ofInterrupt is

/-- The merged code has no meaning exactly if the code of one of the faults has none. -/
theorem unknown_gathered {is : List Interrupt} :
    DmaFault.ofCode? (gathered is).errCode = Option.none ↔
      ∃ code channel, .fault code channel ∈ is ∧ 7 < code := by
  rw [DmaFault.ofCode?_eq_none_iff, errCode_gathered, ← UInt8.not_le, merged_le_seven]
  simp [Interrupt.mem_faults]

/-- What a word says about its faults is one of them exactly if one of them has all their bits. -/
theorem fault_gathered_mem_iff {is : List Interrupt} :
    .fault (gathered is).errCode (gathered is).errChannel ∈ is ↔
      ∃ code channel, .fault code channel ∈ is ∧ ∀ code' channel', .fault code' channel' ∈ is →
        code' ||| code = code ∧ channel' ||| channel = channel := by
  rw [errCode_gathered, errChannel_gathered]
  constructor
  · intro hmem
    refine ⟨_, _, hmem, fun code' channel' hmem' => ?_⟩
    have hfault := Interrupt.mem_faults.mpr hmem'
    exact ⟨or_merged_of_mem (List.mem_map_of_mem hfault),
      or_merged_of_mem (List.mem_map_of_mem hfault)⟩
  · rintro ⟨code, channel, hmem, hcovers⟩
    have hfault := Interrupt.mem_faults.mpr hmem
    have hcode : merged ((Interrupt.faults is).map Prod.fst) = code := by
      refine merged_eq_of_forall_or (List.mem_map_of_mem hfault) fun a ha => ?_
      obtain ⟨⟨code', channel'⟩, hother, rfl⟩ := List.mem_map.mp ha
      exact (hcovers code' channel' (Interrupt.mem_faults.mp hother)).1
    have hchannel : merged ((Interrupt.faults is).map Prod.snd) = channel := by
      refine merged_eq_of_forall_or (List.mem_map_of_mem hfault) fun a ha => ?_
      obtain ⟨⟨code', channel'⟩, hother, rfl⟩ := List.mem_map.mp ha
      exact (hcovers code' channel' (Interrupt.mem_faults.mp hother)).2
    rw [hcode, hchannel]
    exact hmem

end EventWord

end XgmacDriver

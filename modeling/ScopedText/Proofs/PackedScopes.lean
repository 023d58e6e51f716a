import Mathlib
import ScopedText.Scope.Table

/-!
# Scopes packed into words

A packed scope is read by its slots: the mask of the ancestor test compares those that the first
scope uses (`isPrefixOf_iff`), and the slots that it does not use are the low zero bits of its word,
slot by slot (`unused_eq_ctz`).

Up to eight numbers that are not 0 and fit into a slot come back out of the word they are packed
into (`atomAt_ofNumbers`), so packing keeps them apart, counts them, and takes beginnings to
ancestors (`ofNumbers_inj`, `length_ofNumbers`, `isPrefixOf_ofNumbers_iff`).
-/

namespace ScopedText.Scope.Packed

/-! ## Slots and bits -/

theorem testBit_atomAt (p : Packed) (i k : Nat) :
    (p.atomAt i).testBit k = (decide (k < 16) && p.bits.getLsbD (shift i + k)) := by
  have hmask : (0xFFFF#128).getLsbD k = decide (k < 16) := by
    rw [← BitVec.testBit_toNat]
    exact Nat.testBit_two_pow_sub_one 16 k
  rw [atomAt, BitVec.testBit_toNat, BitVec.getLsbD_and, BitVec.getLsbD_ushiftRight, hmask,
    Bool.and_comm]

/-- The bits above the lowest `u` slots are those of the other slots. -/
theorem forall_bits_iff {u : Nat} (hu : u ≤ maxAtoms) {P : Nat → Prop} :
    (∀ k, u * 16 ≤ k → k < 128 → P k) ↔ ∀ i < maxAtoms - u, ∀ k < 16, P (shift i + k) := by
  unfold maxAtoms at hu
  constructor
  · intro h i hi k hk
    unfold maxAtoms at hi
    exact h _ (by unfold shift maxAtoms; omega) (by unfold shift maxAtoms; omega)
  · intro h k hlow hhigh
    have hk : shift (7 - k / 16) + k % 16 = k := by
      unfold shift maxAtoms
      omega
    rw [← hk]
    exact h _ (by unfold maxAtoms; omega) _ (Nat.mod_lt _ (by decide))

theorem atomAt_eq_iff {p q : Packed} {i : Nat} :
    p.atomAt i = q.atomAt i
      ↔ ∀ k < 16, p.bits.getLsbD (shift i + k) = q.bits.getLsbD (shift i + k) := by
  constructor
  · intro h k hk
    have hbit := congrArg (Nat.testBit · k) h
    simpa [testBit_atomAt, hk] using hbit
  · intro h
    refine Nat.eq_of_testBit_eq fun k => ?_
    rw [testBit_atomAt, testBit_atomAt]
    by_cases hk : k < 16
    · rw [h k hk]
    · simp [hk]

theorem unused_le (p : Packed) : p.unused ≤ maxAtoms := by
  have h := (List.takeWhile_sublist (l := List.range maxAtoms)
    fun i => p.atomAt (maxAtoms - 1 - i) == 0).length_le
  rwa [List.length_range] at h

theorem getLsbD_mask {low k : Nat} (hk : k < 128) :
    (BitVec.allOnes 128 <<< low).getLsbD k = decide (low ≤ k) := by
  rw [BitVec.getLsbD_shiftLeft, BitVec.getLsbD_allOnes]
  by_cases hlow : low ≤ k
  · simp [hk, hlow, Nat.not_lt.mpr hlow, Nat.lt_of_le_of_lt (Nat.sub_le k low) hk]
  · simp [hlow, Nat.not_le.mp hlow]

/-- An ancestor agrees with the other scope on the slots that it uses. -/
theorem isPrefixOf_iff {p q : Packed} :
    p.isPrefixOf q = true ↔ ∀ i < p.length, p.atomAt i = q.atomAt i := by
  have hmasked : (p.bits ^^^ q.bits) &&& (BitVec.allOnes 128 <<< (p.unused * 16)) = 0#128
      ↔ ∀ k, p.unused * 16 ≤ k → k < 128 → p.bits.getLsbD k = q.bits.getLsbD k := by
    constructor
    · intro h k hlow hhigh
      have hbit := congrArg (BitVec.getLsbD · k) h
      simp only [BitVec.getLsbD_and, BitVec.getLsbD_xor, getLsbD_mask hhigh, BitVec.getLsbD_zero,
        decide_eq_true hlow, Bool.and_true] at hbit
      simpa using hbit
    · intro h
      refine BitVec.eq_of_getLsbD_eq fun k hhigh => ?_
      rw [BitVec.getLsbD_and, BitVec.getLsbD_xor, getLsbD_mask hhigh, BitVec.getLsbD_zero]
      by_cases hlow : p.unused * 16 ≤ k
      · simp [h k hlow hhigh]
      · simp [hlow]
  have hslots : p.isPrefixOf q = true ↔ ∀ i < maxAtoms - p.unused, p.atomAt i = q.atomAt i := by
    rw [isPrefixOf, Bool.or_eq_true, beq_iff_eq, beq_iff_eq, hmasked, forall_bits_iff p.unused_le]
    simp only [← atomAt_eq_iff]
    constructor
    · rintro (h | h)
      · simp [h]
      · exact h
    · exact .inr
  exact hslots

/-! ## The slots that are not used -/

theorem length_takeWhile_range {p : Nat → Bool} {m n : Nat} (hle : m ≤ n)
    (hall : ∀ i < m, p i = true) (hstop : m < n → p m = false) :
    ((List.range n).takeWhile p).length = m := by
  obtain ⟨k, rfl⟩ := Nat.exists_eq_add_of_le hle
  rw [List.range_add, List.takeWhile_append_of_pos fun i hi => hall i (List.mem_range.mp hi)]
  cases k with
  | zero => simp
  | succ k =>
    rw [List.range_succ_eq_map, List.map_cons, List.takeWhile_cons_of_neg]
    · simp
    · simp [hstop (by omega)]

/-- The unused slots are the low zero bits of the word, counted in whole slots. -/
theorem unused_eq_ctz (p : Packed) :
    p.unused = if p.bits = 0#128 then maxAtoms else p.bits.ctz.toNat / 16 := by
  unfold unused
  split
  case isTrue hzero =>
    refine length_takeWhile_range (Nat.le_refl _) (fun i _ => ?_) (fun h => absurd h (by simp))
    simp [atomAt, hzero]
  case isFalse hzero =>
    have hset := BitVec.getLsbD_true_ctz_of_ne_zero hzero
    have hlt : p.bits.ctz.toNat < 128 := by
      refine Nat.lt_of_not_le fun hge => ?_
      rw [BitVec.getLsbD_of_ge _ _ hge] at hset
      cases hset
    refine length_takeWhile_range (by unfold maxAtoms; omega) (fun i hi => ?_) (fun _ => ?_)
    · refine beq_iff_eq.mpr (Nat.eq_of_testBit_eq fun k => ?_)
      rw [testBit_atomAt, Nat.zero_testBit]
      by_cases hk : k < 16
      · rw [BitVec.getLsbD_false_of_lt_ctz (by unfold shift maxAtoms; omega), Bool.and_false]
      · simp [hk]
    · refine beq_eq_false_iff_ne.mpr fun hnone => ?_
      have hbit := congrArg (Nat.testBit · (p.bits.ctz.toNat % 16)) hnone
      have hplace : shift (maxAtoms - 1 - p.bits.ctz.toNat / 16) + p.bits.ctz.toNat % 16
          = p.bits.ctz.toNat := by
        unfold shift maxAtoms
        omega
      simp [testBit_atomAt, hplace, hset, Nat.mod_lt] at hbit

/-! ## Numbers in slots -/

def Fits (n : Nat) : Prop := 0 < n ∧ n < 2 ^ 16

theorem atomAt_or (a b : BitVec 128) (i : Nat) :
    atomAt ⟨a ||| b⟩ i = atomAt ⟨a⟩ i ||| atomAt ⟨b⟩ i := by
  refine Nat.eq_of_testBit_eq fun k => ?_
  simp only [Nat.testBit_or, testBit_atomAt, BitVec.getLsbD_or, Bool.and_or_distrib_left]

theorem atomAt_shiftLeft {n i j : Nat} (hn : n < 2 ^ 16) (hi : i < maxAtoms) (hj : j < maxAtoms) :
    atomAt ⟨BitVec.ofNat 128 n <<< shift j⟩ i = if i = j then n else 0 := by
  unfold maxAtoms at hi hj
  have hhigh (b : Nat) (hb : 16 ≤ b) : n.testBit b = false :=
    Nat.testBit_lt_two_pow (Nat.lt_of_lt_of_le hn (Nat.pow_le_pow_right (by decide) hb))
  refine Nat.eq_of_testBit_eq fun k => ?_
  rw [testBit_atomAt, BitVec.getLsbD_shiftLeft, BitVec.getLsbD_ofNat]
  split
  case isTrue hij =>
    subst hij
    by_cases hk : k < 16
    · have hword : shift i + k < 128 := by
        unfold shift maxAtoms
        omega
      simp [hk, hword, Nat.lt_trans hk (by decide : 16 < 128)]
    · simp [hk, hhigh k (Nat.not_lt.mp hk)]
  case isFalse hij =>
    rw [Nat.zero_testBit]
    by_cases hplace : k < 16 ∧ ¬shift i + k < shift j
    · have hb : 16 ≤ shift i + k - shift j := by
        unfold shift maxAtoms at hplace ⊢
        omega
      simp [hhigh _ hb]
    · rw [not_and_or, not_not] at hplace
      rcases hplace with hk | hlow
      · simp [hk]
      · simp [hlow]

theorem atomAt_foldl {numbers : List Nat} {j : Nat} (hfit : ∀ n ∈ numbers, Fits n)
    (hlen : j + numbers.length ≤ maxAtoms) (bits : BitVec 128) {i : Nat} (hi : i < maxAtoms) :
    atomAt ⟨(numbers.zipIdx j).foldl
        (fun bits (n, i) => bits ||| (BitVec.ofNat 128 n <<< shift i)) bits⟩ i
      = atomAt ⟨bits⟩ i ||| if j ≤ i then numbers.getD (i - j) 0 else 0 := by
  induction numbers generalizing j bits with
  | nil => simp
  | cons n numbers ih =>
    obtain ⟨hn, hrest⟩ := List.forall_mem_cons.mp hfit
    rw [List.length_cons] at hlen
    rw [List.zipIdx_cons, List.foldl_cons, ih hrest (by omega), atomAt_or,
      atomAt_shiftLeft hn.2 hi (by omega), Nat.or_assoc]
    congr 1
    rcases Nat.lt_trichotomy i j with hlt | rfl | hgt
    · simp [Nat.ne_of_lt hlt, Nat.not_le.mpr hlt, Nat.not_le.mpr (Nat.lt_succ_of_lt hlt)]
    · rw [if_neg (Nat.not_succ_le_self i)]
      simp
    · obtain ⟨d, rfl⟩ := Nat.exists_eq_add_of_lt hgt
      have hd : j + d + 1 - j = d + 1 := by omega
      have hd' : j + d + 1 - (j + 1) = d := by omega
      simp [hd, hd', Nat.ne_of_gt hgt, Nat.le_of_lt hgt]

section

variable {numbers others : List Nat}

/-- The numbers come back out of the word. -/
theorem atomAt_ofNumbers (hfit : ∀ n ∈ numbers, Fits n) (hlen : numbers.length ≤ maxAtoms) {i : Nat}
    (hi : i < maxAtoms) : (ofNumbers numbers).atomAt i = numbers.getD i 0 := by
  rw [ofNumbers, atomAt_foldl hfit (by omega) _ hi]
  simp [atomAt]

theorem length_ofNumbers (hfit : ∀ n ∈ numbers, Fits n) (hlen : numbers.length ≤ maxAtoms) :
    (ofNumbers numbers).length = numbers.length := by
  have hunused : (ofNumbers numbers).unused = maxAtoms - numbers.length := by
    refine length_takeWhile_range (Nat.sub_le _ _) (fun i hi => ?_) (fun hlt => ?_)
    · rw [atomAt_ofNumbers hfit hlen (by omega), List.getD_eq_default _ _ (by omega)]
      rfl
    · have hlast : maxAtoms - 1 - (maxAtoms - numbers.length) < numbers.length := by omega
      rw [atomAt_ofNumbers hfit hlen (by omega), List.getD_eq_getElem _ _ hlast]
      exact beq_eq_false_iff_ne.mpr (Nat.ne_of_gt (hfit _ (List.getElem_mem hlast)).1)
  rw [length, hunused]
  omega

/-- Numbers that are not 0 begin with other ones if they agree as far as there are any. -/
theorem isPrefix_iff_getD (hfit : ∀ n ∈ numbers, Fits n) :
    numbers <+: others ↔ ∀ i < numbers.length, numbers.getD i 0 = others.getD i 0 := by
  rw [List.prefix_iff_getElem?]
  refine forall₂_congr fun i hi => ?_
  rw [List.getD_eq_getElem _ _ hi, List.getD_eq_getElem?_getD]
  have hne : numbers[i] ≠ 0 := Nat.ne_of_gt (hfit _ (List.getElem_mem hi)).1
  cases others[i]? with
  | none => simpa using hne
  | some n => simp [eq_comm]

theorem isPrefixOf_ofNumbers_iff (hfit : ∀ n ∈ numbers, Fits n) (hlen : numbers.length ≤ maxAtoms)
    (hfit' : ∀ n ∈ others, Fits n) (hlen' : others.length ≤ maxAtoms) :
    (ofNumbers numbers).isPrefixOf (ofNumbers others) = true ↔ numbers <+: others := by
  rw [isPrefixOf_iff, isPrefix_iff_getD hfit, length_ofNumbers hfit hlen]
  refine forall₂_congr fun i hi => ?_
  rw [atomAt_ofNumbers hfit hlen (by omega), atomAt_ofNumbers hfit' hlen' (by omega)]

theorem ofNumbers_inj (hfit : ∀ n ∈ numbers, Fits n) (hlen : numbers.length ≤ maxAtoms)
    (hfit' : ∀ n ∈ others, Fits n) (hlen' : others.length ≤ maxAtoms) :
    ofNumbers numbers = ofNumbers others ↔ numbers = others := by
  refine ⟨fun heq => ?_, congrArg ofNumbers⟩
  have hprefix := (isPrefixOf_ofNumbers_iff hfit hlen hfit' hlen').mp
    (isPrefixOf_iff.mpr fun i _ => by rw [heq])
  have hsame := congrArg length heq
  rw [length_ofNumbers hfit hlen, length_ofNumbers hfit' hlen'] at hsame
  exact hprefix.eq_of_length hsame

theorem isEmpty_ofNumbers_iff (hfit : ∀ n ∈ numbers, Fits n) (hlen : numbers.length ≤ maxAtoms) :
    (ofNumbers numbers).isEmpty = true ↔ numbers = [] := by
  have hzero : (ofNumbers []).bits = 0#128 := rfl
  have hnone : ∀ n ∈ ([] : List Nat), Fits n := nofun
  rw [← ofNumbers_inj hfit hlen hnone (Nat.zero_le _), isEmpty, beq_iff_eq, ← hzero]
  constructor
  · intro h
    cases hw : ofNumbers numbers
    rw [hw] at h
    exact congrArg mk h
  · exact congrArg bits

end

end ScopedText.Scope.Packed

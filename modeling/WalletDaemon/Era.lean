import Mathlib.Data.Nat.Log
import Mathlib.Algebra.Order.Ring.Nat

/-! Eras of mortal extrinsics. An era keeps the block it was anchored at only
modulo its period, and long periods keep it only up to a quantum; the runtime
finds the anchor again from the chain's head. -/

namespace WalletDaemon.Era

/-- The mortality rounded up to a power of two, between 4 and 65536. -/
def periodFromRaw (raw : Nat) : Nat := max 4 (min (2 ^ 16) (2 ^ Nat.clog 2 raw))

/-- Blocks that a phase does not tell apart. -/
def quantizeFactor (period : Nat) : Nat := max (period / 2 ^ 12) 1

def phase (period current : Nat) : Nat :=
  current % period / quantizeFactor period * quantizeFactor period

def birth (period phase current : Nat) : Nat :=
  (max current phase - phase) / period * period + phase

/-- Wherever in the window the head is, the era is anchored at `n`. -/
def AnchorAgrees (period n : Nat) : Prop :=
  ∀ head, n ≤ head → head < n + period → birth period (phase period n) head = n

theorem periodFromRaw_pow (raw : Nat) : ∃ k, 2 ≤ k ∧ k ≤ 16 ∧ periodFromRaw raw = 2 ^ k := by
  unfold periodFromRaw
  generalize Nat.clog 2 raw = k
  by_cases small : k < 2
  · refine ⟨2, by omega, by omega, ?_⟩
    have bound : 2 ^ k ≤ 2 ^ 2 := Nat.pow_le_pow_right (by omega) (by omega)
    omega
  by_cases large : 16 < k
  · refine ⟨16, by omega, by omega, ?_⟩
    have bound : 2 ^ 16 ≤ 2 ^ k := Nat.pow_le_pow_right (by omega) (by omega)
    omega
  · refine ⟨k, by omega, by omega, ?_⟩
    have low : 2 ^ 2 ≤ 2 ^ k := Nat.pow_le_pow_right (by omega) (by omega)
    have high : 2 ^ k ≤ 2 ^ 16 := Nat.pow_le_pow_right (by omega) (by omega)
    omega

theorem quantizeFactor_dvd (raw : Nat) :
    quantizeFactor (periodFromRaw raw) ∣ periodFromRaw raw := by
  obtain ⟨k, -, -, period⟩ := periodFromRaw_pow raw
  rw [period, quantizeFactor]
  by_cases long : 12 ≤ k
  · have quantum : 2 ^ k / 2 ^ 12 = 2 ^ (k - 12) := Nat.pow_div long (by omega)
    have positive : 0 < 2 ^ (k - 12) := Nat.pow_pos (by omega)
    rw [quantum, max_eq_left (by omega)]
    exact Nat.pow_dvd_pow 2 (by omega)
  · have short : 2 ^ k < 2 ^ 12 := Nat.pow_lt_pow_right (by omega) (by omega)
    rw [Nat.div_eq_of_lt short]
    simp

/-- The phase is the anchor's remainder, less what the quantum drops. -/
theorem phase_eq {period n : Nat} (dvd : quantizeFactor period ∣ period) :
    phase period n = n % period - n % quantizeFactor period := by
  have parts := Nat.div_add_mod (n % period) (quantizeFactor period)
  rw [Nat.mod_mod_of_dvd n dvd] at parts
  rw [phase, Nat.mul_comm]
  omega

theorem birth_mod {period n : Nat} (positive : 0 < period)
    (dvd : quantizeFactor period ∣ period) (head : Nat) :
    birth period (phase period n) head % period = n % period - n % quantizeFactor period := by
  have below : n % period - n % quantizeFactor period < period := by
    have := Nat.mod_lt n positive
    omega
  rw [birth, Nat.add_comm, Nat.add_mul_mod_self_right, phase_eq dvd, Nat.mod_eq_of_lt below]

/-- The anchor is found again exactly when it falls on a quantum. -/
theorem anchorAgrees_iff {period n : Nat} (positive : 0 < period)
    (dvd : quantizeFactor period ∣ period) :
    AnchorAgrees period n ↔ n % quantizeFactor period = 0 := by
  have small : n % quantizeFactor period ≤ n % period := by
    have := Nat.mod_mod_of_dvd n dvd
    rw [← this]
    exact Nat.mod_le _ _
  constructor
  · intro agrees
    have here := agrees n (le_refl n) (by omega)
    have residue := birth_mod (n := n) positive dvd n
    rw [here] at residue
    omega
  · intro aligned head low high
    have whole := Nat.div_add_mod n period
    have phase_ : phase period n = n % period := by rw [phase_eq dvd, aligned, Nat.sub_zero]
    have above : phase period n ≤ head := by
      have := Nat.mod_le n period
      omega
    have periods : (head - n % period) / period = n / period := by
      rw [Nat.div_eq_iff positive]
      rw [Nat.mul_comm] at whole
      omega
    rw [birth, max_eq_left above, phase_, periods, Nat.mul_comm, whole]

theorem anchorAgrees_raw_iff (raw n : Nat) :
    AnchorAgrees (periodFromRaw raw) n ↔
      n % quantizeFactor (periodFromRaw raw) = 0 := by
  obtain ⟨k, -, -, period⟩ := periodFromRaw_pow raw
  have positive : 0 < periodFromRaw raw := by
    rw [period]
    exact Nat.pow_pos (by omega)
  exact anchorAgrees_iff positive (quantizeFactor_dvd raw)

end WalletDaemon.Era

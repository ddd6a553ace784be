import Mathlib.Algebra.Group.Nat.Defs
import Mathlib.Data.Nat.Basic

/-! What both pollers share: how far a scan drains past pages that submit
nothing, and how failures are counted. -/

namespace WalletDaemon.Retry

/-- Upper bound on consecutive pages without usable rows that one scan drains
without pausing. -/
def maxConsecutiveEmptyPages : Nat := 20

/-- Whether a scan keeps draining past a page that yielded no usable rows. -/
def shouldContinueEmptyDrain (cursor nextCursor : Option String) (emptyPages : Nat) : Bool :=
  match nextCursor with
  | some next => nextCursor ≠ cursor && emptyPages < maxConsecutiveEmptyPages && next ≠ ""
  | none => false

/-- `saturating_add(1)` on a `u32`. -/
def saturatingSucc (n : Nat) : Nat := min (n + 1) (2 ^ 32 - 1)

def initialBackoffSecs : Nat := 1

def maxBackoffSecs : Nat := 60

/-- A 1, 2, 4, ... second delay capped at one minute. -/
def exponentialDelay (failureCount : Nat) : Nat :=
  min (initialBackoffSecs * 2 ^ min failureCount 63) maxBackoffSecs

/-- The delay in milliseconds, for a jitter of 80 to 120 percent. -/
def jitteredExponentialDelay (jitterPercent failureCount : Nat) : Nat :=
  min (1000 * exponentialDelay failureCount * jitterPercent / 100) (maxBackoffSecs * 1000)

theorem exponentialDelay_mono {a b : Nat} (h : a ≤ b) : exponentialDelay a ≤ exponentialDelay b := by
  have powers : 2 ^ min a 63 ≤ 2 ^ min b 63 := Nat.pow_le_pow_right (by decide) (by omega)
  unfold exponentialDelay initialBackoffSecs
  omega

theorem exponentialDelay_capped {n : Nat} (h : 6 ≤ n) : exponentialDelay n = maxBackoffSecs := by
  have powers : 2 ^ 6 ≤ 2 ^ min n 63 := Nat.pow_le_pow_right (by decide) (by omega)
  unfold exponentialDelay initialBackoffSecs maxBackoffSecs
  omega

theorem exponentialDelay_le {a b : Nat} (h : min a 6 ≤ b) :
    exponentialDelay a ≤ exponentialDelay b := by
  by_cases small : a ≤ 6
  · exact exponentialDelay_mono (by omega)
  · rw [exponentialDelay_capped (by omega), exponentialDelay_capped (n := b) (by omega)]

theorem min_six_succ_le {a b : Nat} (h : min a 6 ≤ b) : min (a + 1) 6 ≤ saturatingSucc b := by
  unfold saturatingSucc
  omega

theorem shouldContinueEmptyDrain_iff {cursor nextCursor : Option String} {emptyPages : Nat} :
    shouldContinueEmptyDrain cursor nextCursor emptyPages = true ↔
      ∃ next, nextCursor = some next ∧ cursor ≠ some next ∧
        emptyPages < maxConsecutiveEmptyPages ∧ next ≠ "" := by
  cases nextCursor with
  | none => simp [shouldContinueEmptyDrain]
  | some next =>
    have swap : some next = cursor ↔ cursor = some next := eq_comm
    simp [shouldContinueEmptyDrain, and_assoc, swap]

end WalletDaemon.Retry

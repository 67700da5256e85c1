import CoapNode.Proofs.Time.Retry
import Mathlib.Algebra.Group.Nat.Defs

set_option autoImplicit false

/-! # The delays of a retry timer

How long a retry timer waits, counted in natural numbers: `Growth.delay` is the time from the first
attempt until a number of delays are over. As long as it fits into sixty-four bits this is what the
timer computes (`Growth.toNat_total`). The first delay is drawn from the range of the strategy
(`RetryStrategy.drawDelay_mem`), so the delays that can occur fit if the longest one does
(`Con.Fits`), and then a timer that runs decides by the time that has really passed
(`RetryTimer.Running.poll_cases`).
-/

namespace CoapNode

/-! ## Drawing from a range -/

/-- Scaling sixty-four random bits to a width. -/
theorem Random.scaled_lt (v : UInt64) {width : UInt64} (hwidth : 0 < width) :
    UInt64.ofNat (v.toNat * width.toNat / UInt64.size) < width := by
  have hv : v.toNat < UInt64.size := v.toNat_lt
  have hpos : 0 < width.toNat := UInt64.lt_iff_toNat_lt.1 hwidth
  have hdiv : v.toNat * width.toNat / UInt64.size < width.toNat := by
    rw [Nat.div_lt_iff_lt_mul (by decide)]
    calc v.toNat * width.toNat < UInt64.size * width.toNat := Nat.mul_lt_mul_of_pos_right hv hpos
      _ = width.toNat * UInt64.size := Nat.mul_comm _ _
  rw [UInt64.lt_iff_toNat_lt, UInt64.toNat_ofNat_of_lt' (Nat.lt_trans hdiv width.toNat_lt)]
  exact hdiv

theorem Random.below_lt (random : Random) {width : UInt64} (hwidth : 0 < width) (tries : Nat) :
    (random.below width tries).1 < width := by
  induction tries generalizing random with
  | zero => exact scaled_lt _ hwidth
  | succ tries ih =>
      simp only [below]
      split
      · exact scaled_lt _ hwidth
      · exact ih _

/-- **A number drawn between two bounds lies between them.** -/
theorem Random.between_mem (random : Random) {lo hi : UInt64} (h : lo ≤ hi) :
    lo ≤ (random.between lo hi).1 ∧ (random.between lo hi).1 ≤ hi := by
  have hle : lo.toNat ≤ hi.toNat := UInt64.le_iff_toNat_le.1 h
  have hhi := hi.toNat_lt
  have hsub : (hi - lo).toNat = hi.toNat - lo.toNat := UInt64.toNat_sub_of_le hi lo h
  have hwidth : (hi - lo + 1).toNat = (hi.toNat - lo.toNat + 1) % 2 ^ 64 := by
    rw [UInt64.toNat_add, hsub]
    rfl
  simp only [between]
  split
  · next hzero =>
      -- the range holds every number that there is
      have hfull : (hi.toNat - lo.toNat + 1) % 2 ^ 64 = 0 := by
        rw [← hwidth, hzero]
        rfl
      have hv := (random.double).1.toNat_lt
      rw [UInt64.le_iff_toNat_le, UInt64.le_iff_toNat_le]
      omega
  · next hne =>
      -- what is drawn is at most `hi - lo`, so adding it to `lo` does not wrap around
      have hpos : 0 < hi - lo + 1 := UInt64.pos_iff_ne_zero.2 hne
      have hdrawn := UInt64.lt_iff_toNat_lt.1 (random.below_lt hpos attempts)
      rw [hwidth] at hdrawn
      rw [UInt64.le_iff_toNat_le, UInt64.le_iff_toNat_le, UInt64.toNat_add]
      omega

theorem RetryStrategy.drawDelay_mem {strategy : RetryStrategy} {seed : UInt64} {init : Millis}
    (h : strategy.drawDelay seed = .ok init) : strategy.min ≤ init ∧ init ≤ strategy.max := by
  rw [drawDelay] at h
  split at h
  · next heq =>
      obtain rfl := Except.ok.inj h
      exact ⟨UInt64.le_refl _, heq ▸ UInt64.le_refl _⟩
  · split at h
    · cases h
    · next hlt =>
        obtain rfl := Except.ok.inj h
        exact Random.between_mem _ (UInt64.not_lt.1 hlt)

/-! ## Total delays -/

/-- The time from the first attempt until a number of delays are over, if the first one is `init`,
as a number of any size. -/
def Growth.delay (growth : Growth) (init attempts : Nat) : Nat :=
  match growth with
  | .constant => init * attempts
  | .doubling => init * (2 ^ attempts - 1)

theorem Growth.delay_mono (growth : Growth) {init init' attempts attempts' : Nat}
    (hinit : init ≤ init') (hattempts : attempts ≤ attempts') :
    growth.delay init attempts ≤ growth.delay init' attempts' := by
  cases growth with
  | constant => exact Nat.mul_le_mul hinit hattempts
  | doubling =>
      have hpow : 2 ^ attempts ≤ 2 ^ attempts' := Nat.pow_le_pow_right (by decide) hattempts
      exact Nat.mul_le_mul hinit (Nat.sub_le_sub_right hpow 1)

/-- **A total delay is computed exactly** if it fits into sixty-four bits. -/
theorem Growth.toNat_total (growth : Growth) {init : Millis} {attempts : UInt16}
    (h : growth.delay init.toNat attempts.toNat < 2 ^ 64) :
    (growth.total init attempts).toNat = growth.delay init.toNat attempts.toNat := by
  cases growth with
  | constant =>
      rw [delay] at h ⊢
      rw [total, UInt64.toNat_mul, UInt16.toNat_toUInt64, Nat.mod_eq_of_lt h]
  | doubling =>
      rw [delay] at h ⊢
      rw [total, UInt64.toNat_mul, UInt64.toNat_ofNat', Nat.one_shiftLeft, Nat.mul_mod_mod,
        Nat.mod_eq_of_lt h]

theorem toNat_elapsed (earlier later : Millis) :
    (elapsed earlier later).toNat = later.toNat - earlier.toNat := by
  rw [elapsed]
  split
  · next hle => exact UInt64.toNat_sub_of_le later earlier hle
  · next hnot =>
      have hlt := UInt64.lt_iff_toNat_lt.1 (UInt64.not_le.1 hnot)
      rw [UInt64.toNat_zero]
      omega

/-! ## Delays that fit -/

/-- How many attempts are counted before something is given up. The first one is always made. -/
def Con.attempts (con : Con) : Nat := max 1 con.maxAttempts.toNat

/-- The longest time that a strategy takes until all attempts have failed. -/
def Con.longest (con : Con) (strategy : RetryStrategy) : Nat :=
  strategy.growth.delay strategy.max.toNat con.attempts

/-- **No delay overflows**: the longest times of both strategies fit into sixty-four bits. -/
def Con.Fits (con : Con) : Prop :=
  con.longest con.unacked < 2 ^ 64 ∧ con.longest con.acked < 2 ^ 64

instance (con : Con) : Decidable con.Fits := inferInstanceAs (Decidable (_ ∧ _))

theorem Con.one_le_attempts (con : Con) : 1 ≤ con.attempts := Nat.le_max_left _ _

theorem Con.attempts_eq {con : Con} (hone : 1 ≤ con.maxAttempts) :
    con.attempts = con.maxAttempts.toNat :=
  Nat.max_eq_right (UInt16.le_iff_toNat_le.1 hone)

/-- The longest time of a strategy is what the strategy computes, if there is an attempt to make. -/
theorem Con.longest_eq_maxTime {con : Con} {strategy : RetryStrategy}
    (hfits : con.longest strategy < 2 ^ 64) (hone : 1 ≤ con.maxAttempts) :
    con.longest strategy = (strategy.maxTime con.maxAttempts).toNat := by
  rw [longest, attempts_eq hone] at hfits ⊢
  exact (Growth.toNat_total _ hfits).symm

/-! ## Timers that run -/

namespace RetryTimer

variable {con : Con} {strategy : RetryStrategy} {start : Millis} {timer : RetryTimer}

/-- The time from the start of a timer until a number of its delays are over. -/
def delay (timer : RetryTimer) (attempts : Nat) : Nat :=
  timer.growth.delay timer.init.toNat attempts

/-- **A timer runs** since it was started at a moment: apart from the attempts it has counted
nothing about it has changed, and it has not counted more attempts than are made. -/
structure Running (con : Con) (strategy : RetryStrategy) (start : Millis) (timer : RetryTimer) :
    Prop where
  exists_new : ∃ init, strategy.drawDelay start = .ok init
    ∧ timer = ⟨start, init, strategy.growth, timer.attempts, con.maxAttempts⟩
  one_le : 1 ≤ timer.attempts.toNat
  le_attempts : timer.attempts.toNat ≤ con.attempts

theorem running_new (h : new start strategy con.maxAttempts = .ok timer) :
    timer.Running con strategy start ∧ timer.attempts.toNat = 1 := by
  rw [new] at h
  split at h
  · next init hinit =>
      obtain rfl := Except.ok.inj h
      exact ⟨⟨⟨init, hinit, rfl⟩, Nat.le_refl 1, con.one_le_attempts⟩, rfl⟩
  · cases h

namespace Running

theorem start_eq (h : timer.Running con strategy start) : timer.start = start := by
  obtain ⟨init, -, heq⟩ := h.exists_new
  rw [heq]

theorem maxAttempts_eq (h : timer.Running con strategy start) :
    timer.maxAttempts = con.maxAttempts := by
  obtain ⟨init, -, heq⟩ := h.exists_new
  rw [heq]

theorem delay_le_longest (h : timer.Running con strategy start) {attempts : Nat}
    (hattempts : attempts ≤ con.attempts) : timer.delay attempts ≤ con.longest strategy := by
  obtain ⟨init, hinit, heq⟩ := h.exists_new
  have hmax := UInt64.le_iff_toNat_le.1 (strategy.drawDelay_mem hinit).2
  rw [heq]
  exact Growth.delay_mono _ hmax hattempts

/-- A timer is ready as soon as its delays so far are over. -/
theorem isReady_iff (h : timer.Running con strategy start) (hfits : con.longest strategy < 2 ^ 64)
    (now : Millis) :
    timer.isReady (elapsed timer.start now) timer.attempts = true
      ↔ timer.delay timer.attempts.toNat ≤ now.toNat - start.toNat := by
  have hne : timer.attempts ≠ 0 := by
    intro hzero
    have hone := h.one_le
    rw [hzero] at hone
    exact absurd hone (by decide)
  -- the delays so far are part of the longest ones, so the timer computes them exactly
  have hfit : timer.delay timer.attempts.toNat < 2 ^ 64 :=
    Nat.lt_of_le_of_lt (h.delay_le_longest h.le_attempts) hfits
  rw [isReady, beq_eq_false_iff_ne.2 hne, Bool.false_or, decide_eq_true_iff,
    UInt64.le_iff_toNat_le, Growth.toNat_total _ hfit, toNat_elapsed, h.start_eq]
  exact Iff.rfl

/-- **What a timer that runs decides**: it waits until its delays so far are over, and then it
counts one more attempt, or it gives up as soon as it has counted all of them. -/
theorem poll_cases (h : timer.Running con strategy start)
    (hfits : con.longest strategy < 2 ^ 64) (now : Millis) :
    (timer.poll now = (.wait, timer)
        ∧ now.toNat - start.toNat < timer.delay timer.attempts.toNat)
      ∨ (∃ next, timer.poll now = (.retry, next) ∧ next.Running con strategy start
          ∧ next.attempts.toNat = timer.attempts.toNat + 1
          ∧ timer.delay timer.attempts.toNat ≤ now.toNat - start.toNat)
      ∨ (timer.poll now = (.giveUp, timer) ∧ timer.attempts.toNat = con.attempts
          ∧ timer.delay con.attempts ≤ now.toNat - start.toNat) := by
  have hready := h.isReady_iff hfits now
  have hmax := h.maxAttempts_eq
  have hone := h.one_le
  have hle := h.le_attempts
  rw [poll]
  split
  · next hyes =>
      have hpassed := hready.1 hyes
      split
      · next hlast =>
          -- it cannot have counted more attempts than are made
          rw [UInt16.le_iff_toNat_le, hmax] at hlast
          have heq : timer.attempts.toNat = con.attempts := by
            rw [Con.attempts] at hle ⊢
            omega
          exact .inr (.inr ⟨rfl, heq, heq ▸ hpassed⟩)
      · next hmore =>
          rw [UInt16.le_iff_toNat_le, hmax, Nat.not_le] at hmore
          have hlt := con.maxAttempts.toNat_lt
          have hnext : (timer.attempts + 1).toNat = timer.attempts.toNat + 1 := by
            rw [UInt16.toNat_add]
            exact Nat.mod_eq_of_lt (by simp; omega)
          obtain ⟨init, hinit, heq⟩ := h.exists_new
          refine .inr (.inl ⟨_, rfl, ⟨⟨init, hinit, ?_⟩, ?_, ?_⟩, hnext, hpassed⟩)
          · rw [heq]
          · show 1 ≤ (timer.attempts + 1).toNat
            omega
          · show (timer.attempts + 1).toNat ≤ con.attempts
            rw [hnext, Con.attempts]
            omega
  · next hno => exact .inl ⟨rfl, Nat.lt_of_not_le fun hpassed => hno (hready.2 hpassed)⟩

end Running

end RetryTimer

end CoapNode

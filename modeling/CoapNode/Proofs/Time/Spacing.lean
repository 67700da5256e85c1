import CoapNode.Proofs.Time.Polls

set_option autoImplicit false

/-! # The time between two decisions

A retry timer counts all its delays from the moment of the first attempt. So the decision after a
retry is due at a moment that does not depend on when the timer was asked before: a retry that
comes late takes from the delay of the attempt that it starts, and a timer that is asked late enough
uses up all its attempts at one moment (`burst_sampleStalled`). The first delay passes between a
retry and the decision after it exactly if the retry came soon enough (`spaced_iff_prompt`). Delays
that double leave some grace for that (`Growth.grace`), constant ones leave none.
-/

namespace CoapNode

/-! ## Room for late retries -/

/-- How late a retry may come, once a number of delays are over, so that the first delay still
passes before the next decision is due. -/
def Growth.grace (growth : Growth) (init attempts : Nat) : Nat :=
  match growth with
  | .constant => 0
  | .doubling => growth.delay init attempts

theorem Growth.delay_succ (growth : Growth) (init attempts : Nat) :
    growth.delay init (attempts + 1)
      = growth.delay init attempts + growth.grace init attempts + init := by
  cases growth with
  | constant => rfl
  | doubling =>
      obtain ⟨n, hn⟩ : ∃ n, 2 ^ attempts = n + 1 :=
        Nat.exists_eq_add_one_of_ne_zero (Nat.ne_of_gt (Nat.two_pow_pos attempts))
      have hdouble : 2 ^ (attempts + 1) - 1 = n + n + 1 := by
        rw [Nat.pow_succ, hn]
        omega
      simp only [grace, delay]
      rw [hdouble, hn, Nat.add_sub_cancel, Nat.mul_add, Nat.mul_add, Nat.mul_one]

namespace RetryTimer

/-! ## Two decisions in a row -/

/-- **Two decisions in a row**: after some moments the timer retries, then it waits at some moments,
and at another one it does not wait any more. -/
structure Consecutive (timer : RetryTimer) (past : List Millis) (now : Millis)
    (between : List Millis) (later : Millis) : Prop where
  retries : ((timer.after past).poll now).1 = .retry
  waits : ∀ decision ∈ ((timer.after past).poll now).2.decisions between, decision = .wait
  decides : ((timer.after (past ++ now :: between)).poll later).1 ≠ .wait

/-- **The first delay passes** between a retry and the decision after it, if time does not run
backwards. -/
def Spaced (timer : RetryTimer) (past : List Millis) (now : Millis) : Prop :=
  ∀ between later, (past ++ now :: (between ++ [later])).Pairwise (· ≤ ·) →
    timer.Consecutive past now between later → now.toNat + timer.init.toNat ≤ later.toNat

theorem le_of_sorted {past between : List Millis} {now later : Millis}
    (h : (past ++ now :: (between ++ [later])).Pairwise (· ≤ ·)) : now ≤ later := by
  obtain ⟨-, htail, -⟩ := List.pairwise_append.1 h
  exact (List.pairwise_cons.1 htail).1 later (List.mem_append_right _ (List.mem_singleton_self _))

/-- A delay of zero always passes. -/
theorem spaced_of_zero {timer : RetryTimer} (h : timer.init = 0) (past : List Millis)
    (now : Millis) : timer.Spaced past now := by
  intro between later hsorted _
  rw [h]
  exact UInt64.le_iff_toNat_le.1 (le_of_sorted hsorted)

/-- **Did a retry come soon enough?** It came within the grace after its delays were over. -/
def Prompt (timer : RetryTimer) (past : List Millis) (now : Millis) : Prop :=
  now.toNat ≤ timer.start.toNat + timer.delay (timer.after past).attempts.toNat
    + timer.growth.grace timer.init.toNat (timer.after past).attempts.toNat

theorem delay_succ (timer : RetryTimer) (attempts : Nat) :
    timer.delay (attempts + 1)
      = timer.delay attempts + timer.growth.grace timer.init.toNat attempts + timer.init.toNat :=
  timer.growth.delay_succ timer.init.toNat attempts

theorem poll_of_wait {timer : RetryTimer} {now : Millis} (h : (timer.poll now).1 = .wait) :
    (timer.poll now).2 = timer := by
  unfold poll at h ⊢
  split
  · next hready =>
      rw [if_pos hready] at h
      split at h <;> cases h
  · rfl

/-- Waiting changes nothing. -/
theorem after_of_waits {timer : RetryTimer} {moments : List Millis}
    (h : ∀ decision ∈ timer.decisions moments, decision = .wait) :
    timer.after moments = timer := by
  induction moments with
  | nil => rfl
  | cons now later ih =>
      have hnow : (timer.poll now).2 = timer := poll_of_wait (h _ (List.mem_cons_self ..))
      rw [decisions_cons, hnow] at h
      rw [after_cons, hnow]
      exact ih fun decision hmem => h decision (List.mem_cons_of_mem _ hmem)

namespace Running

variable {con : Con} {strategy : RetryStrategy} {start now : Millis} {timer : RetryTimer}
  {past : List Millis}

/-- A timer does not wait any more as soon as its delays so far are over. -/
theorem decides_iff (h : timer.Running con strategy start) (hfits : con.longest strategy < 2 ^ 64)
    (now : Millis) :
    (timer.poll now).1 ≠ .wait
      ↔ timer.delay timer.attempts.toNat ≤ (elapsed start now).toNat := by
  rw [toNat_elapsed]
  rcases h.poll_cases hfits now with
    ⟨hpoll, hearly⟩ | ⟨next, hpoll, -, -, hpassed⟩ | ⟨hpoll, hall, hpassed⟩
  · rw [hpoll]
    exact ⟨fun hne => absurd rfl hne, fun hpassed => absurd hearly (Nat.not_lt.2 hpassed)⟩
  · rw [hpoll]
    exact ⟨fun _ => hpassed, fun _ => nofun⟩
  · rw [hpoll, hall]
    exact ⟨fun _ => hpassed, fun _ => nofun⟩

/-- The delays are those of the first timer, whenever that was asked. -/
theorem delay_after (h : timer.Running con strategy start) (hfits : con.longest strategy < 2 ^ 64)
    (past : List Millis) (attempts : Nat) :
    (timer.after past).delay attempts = timer.delay attempts := by
  obtain ⟨init, hinit, heq⟩ := h.exists_new
  obtain ⟨init', hinit', heq'⟩ := (h.after hfits past).1.exists_new
  obtain rfl : init = init' := Except.ok.inj (hinit.symm.trans hinit')
  rw [heq', heq]
  rfl

/-- **When the decision after a retry is due**: one more delay after the first attempt, whenever the
retry came. -/
theorem consecutive_iff (h : timer.Running con strategy start)
    (hfits : con.longest strategy < 2 ^ 64) (hretry : ((timer.after past).poll now).1 = .retry)
    (between : List Millis) (later : Millis) :
    timer.Consecutive past now between later
      ↔ (∀ decision ∈ ((timer.after past).poll now).2.decisions between, decision = .wait)
        ∧ timer.delay ((timer.after past).attempts.toNat + 1) ≤ (elapsed start later).toNat := by
  obtain ⟨hnext, hattempts⟩ := (h.after hfits past).1.next hfits now
  rw [hretry] at hattempts
  have hdelay := h.delay_after hfits (past ++ [now]) ((timer.after past).attempts.toNat + 1)
  rw [after_append] at hdelay
  have hdecides : (∀ decision ∈ ((timer.after past).poll now).2.decisions between,
        decision = .wait) →
      (((timer.after (past ++ now :: between)).poll later).1 ≠ .wait
        ↔ timer.delay ((timer.after past).attempts.toNat + 1) ≤ (elapsed start later).toNat) := by
    intro hwaits
    rw [after_append, after_cons, after_of_waits hwaits, hnext.decides_iff hfits, hattempts,
      ← hdelay]
    rfl
  constructor
  · intro hconsecutive
    exact ⟨hconsecutive.waits, (hdecides hconsecutive.waits).1 hconsecutive.decides⟩
  · rintro ⟨hwaits, hdue⟩
    exact ⟨hretry, hwaits, (hdecides hwaits).2 hdue⟩

/-- A prompt retry leaves room for the first delay. -/
theorem spaced_of_prompt (h : timer.Running con strategy start)
    (hfits : con.longest strategy < 2 ^ 64) (hretry : ((timer.after past).poll now).1 = .retry)
    (hprompt : timer.Prompt past now) : timer.Spaced past now := by
  intro between later hsorted hconsecutive
  have hle := UInt64.le_iff_toNat_le.1 (le_of_sorted hsorted)
  have hdue := ((h.consecutive_iff hfits hretry between later).1 hconsecutive).2
  rw [toNat_elapsed, delay_succ] at hdue
  rw [Prompt, h.start_eq] at hprompt
  omega

/-- **A retry that comes too late takes from the delay after it**, if the timer is asked as soon as
the next decision is due. -/
theorem prompt_of_spaced (h : timer.Running con strategy start)
    (hfits : con.longest strategy < 2 ^ 64) (hretry : ((timer.after past).poll now).1 = .retry)
    (hsorted : (past ++ [now]).Pairwise (· ≤ ·)) (hspaced : timer.Spaced past now)
    (hinit : 0 < timer.init)
    (hends : start.toNat + timer.delay ((timer.after past).attempts.toNat + 1) < 2 ^ 64) :
    timer.Prompt past now := by
  rw [UInt64.lt_iff_toNat_lt] at hinit
  -- the next decision may be due already
  obtain ⟨later, hlater⟩ : ∃ later : Millis, later.toNat
      = max now.toNat (start.toNat + timer.delay ((timer.after past).attempts.toNat + 1)) :=
    ⟨_, UInt64.toNat_ofNat_of_lt' (Nat.max_lt.2 ⟨now.toNat_lt, hends⟩)⟩
  have hconsecutive : timer.Consecutive past now [] later := by
    rw [h.consecutive_iff hfits hretry, toNat_elapsed, hlater]
    exact ⟨nofun, by omega⟩
  have hsorted' : (past ++ now :: ([] ++ [later])).Pairwise (· ≤ ·) := by
    obtain ⟨hpast, -, hnow⟩ := List.pairwise_append.1 hsorted
    have hle : now ≤ later := by
      rw [UInt64.le_iff_toNat_le, hlater]
      exact Nat.le_max_left _ _
    refine List.pairwise_append.2 ⟨hpast, List.pairwise_pair.2 hle, fun moment hmem => ?_⟩
    have hmoment := hnow moment hmem now (List.mem_singleton_self _)
    simpa using ⟨hmoment, UInt64.le_trans hmoment hle⟩
  have hgap := hspaced [] later hsorted' hconsecutive
  rw [hlater, delay_succ] at hgap
  rw [Prompt, h.start_eq]
  omega

/-- If the next decision is due after the end of the clock, there is none. -/
theorem spaced_of_end (h : timer.Running con strategy start)
    (hfits : con.longest strategy < 2 ^ 64) (hretry : ((timer.after past).poll now).1 = .retry)
    (hinit : 0 < timer.init)
    (hends : 2 ^ 64 ≤ start.toNat + timer.delay ((timer.after past).attempts.toNat + 1)) :
    timer.Spaced past now := by
  intro between later hsorted hconsecutive
  rw [UInt64.lt_iff_toNat_lt] at hinit
  have hdue := ((h.consecutive_iff hfits hretry between later).1 hconsecutive).2
  have hlt := later.toNat_lt
  rw [toNat_elapsed] at hdue
  rw [delay_succ] at hdue hends
  omega

end Running

/-! ## Main result -/

/-- **When the first delay passes between two decisions.** Let the first delay be drawn from a range
that is not empty, and let the delays fit into sixty-four bits. Then a timer can be started at any
moment, and if it retries at some moment afterwards, the next decision that is not to wait comes as
soon as one more delay is over since the start, however late the retry came. So if time does not run
backwards the first delay passes in between, whenever the timer is asked, exactly if it is zero, or
the retry was prompt, or the clock ends before the next decision is due. -/
theorem spaced_iff_prompt {strategy : RetryStrategy} {maxAttempts : UInt16}
    (hvalid : strategy.Valid) (hfits : strategy.longest (max 1 maxAttempts.toNat) < 2 ^ 64)
    (start : Millis) :
    ∃ timer, new start strategy maxAttempts = .ok timer
      ∧ ∀ past now, ((timer.after past).poll now).1 = .retry →
        (∀ between later, timer.Consecutive past now between later
            ↔ (∀ decision ∈ ((timer.after past).poll now).2.decisions between, decision = .wait)
              ∧ timer.delay ((timer.after past).attempts.toNat + 1) ≤ (elapsed start later).toNat)
          ∧ ((past ++ [now]).Pairwise (· ≤ ·) →
            (timer.Spaced past now ↔ timer.init = 0 ∨ timer.Prompt past now
              ∨ 2 ^ 64 ≤ start.toNat + timer.delay ((timer.after past).attempts.toNat + 1))) := by
  let con : Con := { unacked := strategy, acked := strategy, maxAttempts }
  have hlongest : con.longest strategy < 2 ^ 64 := hfits
  obtain ⟨timer, hnew⟩ := exists_new hvalid start maxAttempts
  have hrunning : timer.Running con strategy start := (running_new hnew).1
  refine ⟨timer, hnew, fun past now hretry => ⟨?_, fun hsorted => ?_⟩⟩
  · exact hrunning.consecutive_iff hlongest hretry
  · by_cases hinit : timer.init = 0
    · exact ⟨fun _ => .inl hinit, fun _ => spaced_of_zero hinit past now⟩
    · have hpos : 0 < timer.init := UInt64.pos_iff_ne_zero.2 hinit
      constructor
      · intro hspaced
        rcases Nat.lt_or_ge (start.toNat + timer.delay ((timer.after past).attempts.toNat + 1))
          (2 ^ 64) with hends | hends
        · exact .inr (.inl (hrunning.prompt_of_spaced hlongest hretry hsorted hspaced hpos hends))
        · exact .inr (.inr hends)
      · rintro (hzero | hprompt | hends)
        · exact absurd hzero hinit
        · exact hrunning.spaced_of_prompt hlongest hretry hprompt
        · exact hrunning.spaced_of_end hlongest hretry hpos hends

/-- Three attempts, each a tenth of a second after the one before. -/
def sampleStalled : RetryTimer := ⟨0, 100, .constant, 1, 3⟩

/-- A timer that is not asked before all its delays are over retries and gives up at one moment. -/
theorem burst_sampleStalled :
    RetryStrategy.Valid ⟨.constant, 100, 100⟩
      ∧ RetryStrategy.longest ⟨.constant, 100, 100⟩ (max 1 (3 : UInt16).toNat) < 2 ^ 64
      ∧ new 0 ⟨.constant, 100, 100⟩ 3 = .ok sampleStalled
      ∧ sampleStalled.decisions [300, 300, 300] = [.retry, .retry, .giveUp]
      ∧ ([300, 300, 300] : List Millis).Pairwise (· ≤ ·)
      ∧ sampleStalled.Consecutive [] 300 [] 300 ∧ ¬sampleStalled.Spaced [] 300
      ∧ sampleStalled.Consecutive [300] 300 [] 300 ∧ ¬sampleStalled.Spaced [300] 300 := by
  have hretry : sampleStalled.Consecutive [] 300 [] 300 := ⟨by decide, nofun, by decide⟩
  have hgiveUp : sampleStalled.Consecutive [300] 300 [] 300 := ⟨by decide, nofun, by decide⟩
  refine ⟨by decide, by decide, rfl, by decide, by decide, hretry, ?_, hgiveUp, ?_⟩
  · intro hspaced
    exact absurd (hspaced [] 300 (by decide) hretry) (by decide)
  · intro hspaced
    exact absurd (hspaced [] 300 (by decide) hgiveUp) (by decide)

theorem spaced_iff_prompt_sampleStrategy :
    sampleStrategy.Valid ∧ sampleStrategy.longest (max 1 (4 : UInt16).toNat) < 2 ^ 64
      ∧ ∃ timer, new 7919 sampleStrategy 4 = .ok timer
        ∧ ∀ past now, ((timer.after past).poll now).1 = .retry →
          (∀ between later, timer.Consecutive past now between later
              ↔ (∀ decision ∈ ((timer.after past).poll now).2.decisions between, decision = .wait)
                ∧ timer.delay ((timer.after past).attempts.toNat + 1)
                  ≤ (elapsed 7919 later).toNat)
            ∧ ((past ++ [now]).Pairwise (· ≤ ·) →
              (timer.Spaced past now ↔ timer.init = 0 ∨ timer.Prompt past now
                ∨ 2 ^ 64 ≤ (7919 : Millis).toNat
                  + timer.delay ((timer.after past).attempts.toNat + 1))) := by
  have hvalid : sampleStrategy.Valid := by decide
  have hfits : sampleStrategy.longest (max 1 (4 : UInt16).toNat) < 2 ^ 64 := by decide
  exact ⟨hvalid, hfits, spaced_iff_prompt hvalid hfits 7919⟩

end RetryTimer

end CoapNode

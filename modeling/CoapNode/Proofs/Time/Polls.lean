import CoapNode.Proofs.Time.Delay

set_option autoImplicit false

/-! # Asking a retry timer again and again

A retry timer is asked at some moments, in any order: `RetryTimer.decisions` is what it decides, and
`RetryTimer.after` is what has become of it. Its strategy brackets it from both sides
(`RetryTimer.Bracketed`). The first delay lies between the bounds of the strategy, so no decision
comes before the shortest time that the strategy can take, and from the longest time on the timer
does not wait any more and gives up as soon as it has counted all attempts
(`RetryTimer.bracketed_by_strategy`).
-/

namespace CoapNode

/-! ## The times that a strategy can take -/

namespace RetryStrategy

/-- The shortest time until a number of delays are over. -/
def shortest (strategy : RetryStrategy) (attempts : Nat) : Nat :=
  strategy.growth.delay strategy.min.toNat attempts

/-- The longest time until a number of delays are over. -/
def longest (strategy : RetryStrategy) (attempts : Nat) : Nat :=
  strategy.growth.delay strategy.max.toNat attempts

end RetryStrategy

namespace RetryTimer

/-! ## Runs -/

/-- What has become of a timer after it was asked at some moments, one after the other. -/
def after (timer : RetryTimer) (moments : List Millis) : RetryTimer :=
  moments.foldl (fun timer now => (timer.poll now).2) timer

/-- What a timer decides if it is asked at some moments, one after the other. -/
def decisions (timer : RetryTimer) : List Millis → List RetryDecision
  | [] => []
  | now :: later => (timer.poll now).1 :: (timer.poll now).2.decisions later

@[simp] theorem after_nil (timer : RetryTimer) : timer.after [] = timer := rfl

@[simp] theorem after_cons (timer : RetryTimer) (now : Millis) (later : List Millis) :
    timer.after (now :: later) = (timer.poll now).2.after later := rfl

theorem after_append (timer : RetryTimer) (past later : List Millis) :
    timer.after (past ++ later) = (timer.after past).after later := List.foldl_append

@[simp] theorem decisions_nil (timer : RetryTimer) : timer.decisions [] = [] := rfl

@[simp] theorem decisions_cons (timer : RetryTimer) (now : Millis) (later : List Millis) :
    timer.decisions (now :: later) = (timer.poll now).1 :: (timer.poll now).2.decisions later := rfl

theorem decisions_append (timer : RetryTimer) (past later : List Millis) :
    timer.decisions (past ++ later)
      = timer.decisions past ++ (timer.after past).decisions later := by
  induction past generalizing timer with
  | nil => rfl
  | cons now past ih =>
      rw [List.cons_append, decisions_cons, ih, decisions_cons, after_cons, List.cons_append]

/-! ## What a timer that runs goes through -/

namespace Running

variable {con : Con} {strategy : RetryStrategy} {start now : Millis} {timer : RetryTimer}
  {past late : List Millis}

theorem shortest_le_delay (h : timer.Running con strategy start) (attempts : Nat) :
    strategy.shortest attempts ≤ timer.delay attempts := by
  obtain ⟨init, hinit, heq⟩ := h.exists_new
  have hmin := UInt64.le_iff_toNat_le.1 (strategy.drawDelay_mem hinit).1
  rw [heq]
  exact Growth.delay_mono _ hmin (Nat.le_refl _)

/-- **One question** leaves the timer running, and counts an attempt if the answer is to retry. -/
theorem next (h : timer.Running con strategy start) (hfits : con.longest strategy < 2 ^ 64)
    (now : Millis) :
    (timer.poll now).2.Running con strategy start
      ∧ (timer.poll now).2.attempts.toNat
        = timer.attempts.toNat + [(timer.poll now).1].count .retry := by
  rcases h.poll_cases hfits now with ⟨hpoll, -⟩ | ⟨next, hpoll, hnext, hattempts, -⟩ | ⟨hpoll, -, -⟩
  · rw [hpoll]
    exact ⟨h, rfl⟩
  · rw [hpoll]
    exact ⟨hnext, hattempts⟩
  · rw [hpoll]
    exact ⟨h, rfl⟩

/-- A timer retries once its delays so far are over, as long as there is an attempt left. -/
theorem of_retry (h : timer.Running con strategy start) (hfits : con.longest strategy < 2 ^ 64)
    (hretry : (timer.poll now).1 = .retry) :
    timer.attempts.toNat < con.attempts
      ∧ timer.delay timer.attempts.toNat ≤ (elapsed start now).toNat := by
  rw [toNat_elapsed]
  rcases h.poll_cases hfits now with
    ⟨hpoll, -⟩ | ⟨next, -, hnext, hattempts, hpassed⟩ | ⟨hpoll, -, -⟩
  · rw [hpoll] at hretry
    cases hretry
  · have hle := hnext.le_attempts
    exact ⟨by omega, hpassed⟩
  · rw [hpoll] at hretry
    cases hretry

/-- A timer gives up once all its delays are over. -/
theorem of_giveUp (h : timer.Running con strategy start) (hfits : con.longest strategy < 2 ^ 64)
    (hgiveUp : (timer.poll now).1 = .giveUp) :
    timer.attempts.toNat = con.attempts
      ∧ timer.delay con.attempts ≤ (elapsed start now).toNat := by
  rw [toNat_elapsed]
  rcases h.poll_cases hfits now with ⟨hpoll, -⟩ | ⟨next, hpoll, -⟩ | ⟨-, hall, hpassed⟩
  · rw [hpoll] at hgiveUp
    cases hgiveUp
  · rw [hpoll] at hgiveUp
    cases hgiveUp
  · exact ⟨hall, hpassed⟩

/-- **The attempts are counted** by the decisions to retry, whenever the timer is asked. -/
theorem after (h : timer.Running con strategy start) (hfits : con.longest strategy < 2 ^ 64)
    (past : List Millis) :
    (timer.after past).Running con strategy start
      ∧ (timer.after past).attempts.toNat
        = timer.attempts.toNat + (timer.decisions past).count .retry := by
  induction past generalizing timer with
  | nil => exact ⟨h, rfl⟩
  | cons now past ih =>
      obtain ⟨hnext, hattempts⟩ := h.next hfits now
      obtain ⟨hafter, hcount⟩ := ih hnext
      refine ⟨hafter, ?_⟩
      have hsplit : (timer.decisions (now :: past)).count .retry
          = [(timer.poll now).1].count .retry
            + ((timer.poll now).2.decisions past).count .retry := by
        rw [decisions_cons, ← List.singleton_append, List.count_append]
      rw [after_cons, hcount, hattempts, hsplit, Nat.add_assoc]

/-- A timer that has given up has counted all attempts. -/
theorem attempts_of_giveUp (h : timer.Running con strategy start)
    (hfits : con.longest strategy < 2 ^ 64) (hgiven : .giveUp ∈ timer.decisions past) :
    (timer.after past).attempts.toNat = con.attempts := by
  induction past generalizing timer with
  | nil => cases hgiven
  | cons now past ih =>
      obtain ⟨hnext, hattempts⟩ := h.next hfits now
      rcases List.mem_cons.1 hgiven with hnow | hlater
      · -- it has counted all of them at this moment, and none can come after that
        have hall := (h.of_giveUp hfits hnow.symm).1
        obtain ⟨hafter, hcount⟩ := hnext.after hfits past
        have hle := hafter.le_attempts
        rw [after_cons]
        omega
      · exact ih hnext hlater

/-- **From the longest time on the timer does not wait**: if it is asked so often that there is no
attempt left to count, it gives up in the end. -/
theorem getLast?_of_late (h : timer.Running con strategy start)
    (hfits : con.longest strategy < 2 ^ 64)
    (hlate : ∀ now ∈ late, start.toNat + con.longest strategy ≤ now.toNat)
    (hmany : con.attempts < timer.attempts.toNat + late.length) :
    (timer.decisions late).getLast? = some .giveUp := by
  induction late generalizing timer with
  | nil => exact absurd h.le_attempts (Nat.not_le.2 hmany)
  | cons now later ih =>
      have hnow := hlate now (List.mem_cons_self ..)
      have hlater : ∀ now ∈ later, start.toNat + con.longest strategy ≤ now.toNat :=
        fun now hmem => hlate now (List.mem_cons_of_mem _ hmem)
      rw [List.length_cons] at hmany
      rw [decisions_cons, List.getLast?_cons]
      rcases h.poll_cases hfits now with
        ⟨-, hearly⟩ | ⟨next, hpoll, hnext, hattempts, -⟩ | ⟨hpoll, hall, -⟩
      · have hle := h.delay_le_longest h.le_attempts
        omega
      · have hlast := ih hnext hlater (by omega)
        rw [hpoll, hlast]
        rfl
      · rw [hpoll]
        cases later with
        | nil => rfl
        | cons now' later' =>
            have hlast := ih h hlater (by simp only [List.length_cons]; omega)
            rw [hlast]
            rfl

end Running

/-! ## Main result -/

/-- **What a strategy says about a timer** that was started by it, once the timer was asked at some
moments. -/
structure Bracketed (strategy : RetryStrategy) (start : Millis) (maxAttempts : UInt16)
    (timer : RetryTimer) (past : List Millis) : Prop where
  /-- The attempts are the first one and the decisions to retry. -/
  attempts_eq : (timer.after past).attempts.toNat = (timer.decisions past).count .retry + 1
  attempts_le : (timer.after past).attempts ≤ maxAttempts
  /-- No attempt is taken back, whenever the timer is asked next. -/
  attempts_mono : ∀ later, (timer.after past).attempts ≤ (timer.after (past ++ later)).attempts
  retries_le : (timer.decisions past).count .retry ≤ maxAttempts.toNat - 1
  /-- A timer that has given up does not retry any more. -/
  no_retry : .giveUp ∈ timer.decisions past → ∀ now, ((timer.after past).poll now).1 ≠ .retry
  /-- The next decision to retry does not come before as many of the shortest delays are over as
  there will be such decisions then. -/
  retry_late : ∀ now, ((timer.after past).poll now).1 = .retry →
    strategy.shortest ((timer.decisions past).count .retry + 1) ≤ (elapsed start now).toNat
  giveUp_late : ∀ now, ((timer.after past).poll now).1 = .giveUp →
    strategy.shortest maxAttempts.toNat ≤ (elapsed start now).toNat
  /-- As many questions as there are attempts, all of them after the longest time, end with giving
  up. -/
  giveUp_of_late : ∀ late, late.length = maxAttempts.toNat →
    (∀ now ∈ late, start.toNat + (strategy.maxTime maxAttempts).toNat ≤ now.toNat) →
    (timer.decisions (past ++ late)).getLast? = some .giveUp

/-- A timer that has just been started is bracketed, whenever it is asked. -/
theorem bracketed_of_running {con : Con} {strategy : RetryStrategy} {start : Millis}
    {timer : RetryTimer} (h : timer.Running con strategy start) (hfirst : timer.attempts.toNat = 1)
    (hone : 1 ≤ con.maxAttempts) (hfits : con.longest strategy < 2 ^ 64) (past : List Millis) :
    timer.Bracketed strategy start con.maxAttempts past := by
  have hmax := Con.attempts_eq hone
  obtain ⟨hafter, hcount⟩ := h.after hfits past
  have hle := hafter.le_attempts
  exact {
    attempts_eq := by omega
    attempts_le := by
      rw [UInt16.le_iff_toNat_le]
      omega
    attempts_mono := by
      intro later
      obtain ⟨-, hlater⟩ := hafter.after hfits later
      rw [UInt16.le_iff_toNat_le, after_append]
      omega
    retries_le := by omega
    no_retry := by
      intro hgiven now hretry
      have hall := h.attempts_of_giveUp hfits hgiven
      have hleft := (hafter.of_retry hfits hretry).1
      omega
    retry_late := by
      intro now hretry
      rw [Nat.add_comm, ← hfirst, ← hcount]
      exact Nat.le_trans (hafter.shortest_le_delay _) (hafter.of_retry hfits hretry).2
    giveUp_late := by
      intro now hgiveUp
      rw [← hmax]
      exact Nat.le_trans (hafter.shortest_le_delay _) (hafter.of_giveUp hfits hgiveUp).2
    giveUp_of_late := by
      intro late hlength hlate
      rw [← Con.longest_eq_maxTime hfits hone] at hlate
      have hpos := hafter.one_le
      have hmany : con.attempts < (timer.after past).attempts.toNat + late.length := by omega
      have hlast := hafter.getLast?_of_late hfits hlate hmany
      rw [decisions_append, List.getLast?_append, hlast]
      rfl }

/-- **A retry timer is bracketed by its strategy.** Let the first delay be drawn from a range that
is not empty, let there be an attempt to make, and let the longest time fit into sixty-four bits.
Then a timer can be started at any moment. Its first delay lies in the range, it has counted one
attempt, and whenever it is asked afterwards, by a clock that may jump, the strategy brackets it. -/
theorem bracketed_by_strategy {strategy : RetryStrategy} {maxAttempts : UInt16}
    (hvalid : strategy.Valid) (hone : 1 ≤ maxAttempts)
    (hfits : strategy.longest maxAttempts.toNat < 2 ^ 64) (start : Millis) :
    ∃ timer, new start strategy maxAttempts = .ok timer
      ∧ (strategy.min ≤ timer.init ∧ timer.init ≤ strategy.max)
      ∧ timer.attempts = 1
      ∧ ∀ past, timer.Bracketed strategy start maxAttempts past := by
  let con : Con := { unacked := strategy, acked := strategy, maxAttempts }
  have hlongest : con.longest strategy < 2 ^ 64 := by
    rw [Con.longest, Con.attempts_eq hone]
    exact hfits
  obtain ⟨timer, hnew⟩ := exists_new hvalid start maxAttempts
  obtain ⟨hrunning, hfirst⟩ : timer.Running con strategy start ∧ timer.attempts.toNat = 1 :=
    running_new hnew
  refine ⟨timer, hnew, ?_, UInt16.toNat_inj.1 hfirst, ?_⟩
  · obtain ⟨init, hinit, heq⟩ := hrunning.exists_new
    rw [heq]
    exact strategy.drawDelay_mem hinit
  · intro past
    exact bracketed_of_running hrunning hfirst hone hlongest past

/-- Four attempts, the first delay between half a second and a second, and each delay twice as long
as the one before. -/
def sampleStrategy : RetryStrategy := ⟨.doubling, 500, 1000⟩

theorem bracketed_by_sampleStrategy :
    sampleStrategy.Valid ∧ (1 : UInt16) ≤ 4
      ∧ sampleStrategy.longest (4 : UInt16).toNat < 2 ^ 64
      ∧ ∃ timer, new 7919 sampleStrategy 4 = .ok timer
        ∧ (sampleStrategy.min ≤ timer.init ∧ timer.init ≤ sampleStrategy.max)
        ∧ timer.attempts = 1
        ∧ ∀ past, timer.Bracketed sampleStrategy 7919 4 past := by
  have hvalid : sampleStrategy.Valid := by decide
  have hone : (1 : UInt16) ≤ 4 := by decide
  have hfits : sampleStrategy.longest (4 : UInt16).toNat < 2 ^ 64 := by decide
  exact ⟨hvalid, hone, hfits, bracketed_by_strategy hvalid hone hfits 7919⟩

end RetryTimer

end CoapNode

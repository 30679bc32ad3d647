import Mathlib.Algebra.Order.BigOperators.Group.List
import WslVpn.Windows.Grants
import WslVpn.Control.RateLimit

/-! What the request counter promises over any interval, and to a client that it turned away. -/

namespace WslVpn

open AddressSpace Records Windows

/-- What the limiter holds for a client accounts for the times at which the client was allowed: they
are grants of windows that follow one another. Without a window, the last one has run out.
-/
def RateLimitConfig.Accounts (config : RateLimitConfig) (now : Nat) (times : List Nat)
    : Option Window → Prop
  | some w => Windows.Grants config.window config.requests times w.started w.count ∧ w.started ≤ now
  | none => ∃ start count, Windows.Grants config.window config.requests times start count
      ∧ (times = [] ∨ start + config.window ≤ now)

namespace RateLimiter

variable {limiter : RateLimiter} {key client : IpAddr} {now : Nat} {times : List Nat}
  {held : Option Window}

open RateLimitConfig (Accounts)

theorem window_pos (config : RateLimitConfig) : 0 < config.window := by
  simp only [RateLimitConfig.window, nanosPerSec]
  omega

/-- A client that has never called. -/
theorem accounts_nothing (config : RateLimitConfig) (now : Nat) : config.Accounts now [] none :=
  ⟨now, 0, .opened now, Or.inl rfl⟩

/-- Time passes. -/
theorem accounts_later {config : RateLimitConfig} {later : Nat}
    (accounts : config.Accounts now times held)
    (passes : now ≤ later)
    : config.Accounts later times held := by
  cases held with
  | some w => exact ⟨accounts.1, accounts.2.trans passes⟩
  | none =>
      obtain ⟨start, count, grants, ended⟩ := accounts
      exact ⟨start, count, grants, ended.imp_right (fun past => past.trans passes)⟩

/-- The times are grants, whether the limiter still holds a window or not. -/
theorem accounts_grants {config : RateLimitConfig} (accounts : config.Accounts now times held)
    : ∃ start count, Windows.Grants config.window config.requests times start count := by
  cases held with
  | some w => exact ⟨w.started, w.count, accounts.1⟩
  | none =>
      obtain ⟨start, count, grants, ended⟩ := accounts
      exact ⟨start, count, grants⟩

/-- The window that a call is counted in accounts for what the client was allowed before. -/
theorem accounts_entry (accounts : limiter.config.Accounts now times (limiter.windows.lookup key))
    : Windows.Grants limiter.config.window limiter.config.requests times (limiter.entry key now).started
        (limiter.entry key now).count
      ∧ (limiter.entry key now).started ≤ now
      ∧ now < (limiter.entry key now).started + limiter.config.window := by
  have width := window_pos limiter.config
  rcases @entry_cases limiter key now with ⟨fresh, past⟩ | inside
  · rw [fresh]
    refine ⟨?_, le_refl now, Nat.lt_add_of_pos_right width⟩
    cases found : limiter.windows.lookup key with
    | some w =>
        rw [found] at accounts
        have ended := past w found
        simp only [durationSince] at ended
        have apart : w.started + limiter.config.window ≤ now := by omega
        exact accounts.1.reopened apart
    | none =>
        rw [found] at accounts
        obtain ⟨start, count, grants, rfl | ended⟩ := accounts
        · exact .opened now
        · exact grants.reopened ended
  · obtain ⟨w, had, same, inside⟩ := inside
    rw [had] at accounts
    simp only [durationSince] at inside
    rw [same]
    exact ⟨accounts.1, accounts.2, by omega⟩

/-- A call that a window with budget left is counted in. -/
theorem accounts_granted {config : RateLimitConfig} {w : Window}
    (grants : Windows.Grants config.window config.requests times w.started w.count)
    (started : w.started ≤ now)
    (inside : now < w.started + config.window) (left : w.count < config.requests)
    : config.Accounts now (now :: times) (some ⟨w.started, w.count + 1⟩) :=
  ⟨grants.granted left started inside, started⟩

/-- A call of the client is accounted for. -/
theorem accounts_own (on : limiter.enabled = true)
    (accounts : limiter.config.Accounts now times (limiter.windows.lookup key))
    : limiter.config.Accounts now
        (if (limiter.checkAt key now).1.isAllowed then now :: times else times)
        ((limiter.checkAt key now).2.windows.lookup key) := by
  obtain ⟨grants, started, inside⟩ := accounts_entry accounts
  rcases @checkAt_cases limiter key now on with ⟨full, limited, kept⟩ | ⟨left, allowed, kept⟩
  · have refused : (limiter.checkAt key now).1.isAllowed
        = false := by rw [limited, Decision.isAllowed]
    rw [kept, refused, if_neg (by simp)]
    exact ⟨grants, started⟩
  · rw [kept, if_pos allowed]
    exact accounts_granted grants started inside left

/-- A call of another client leaves the account. -/
theorem accounts_other (differs : client ≠ key)
    (accounts : limiter.config.Accounts now times (limiter.windows.lookup key))
    : limiter.config.Accounts now times ((limiter.checkAt client now).2.windows.lookup key) := by
  rcases @lookup_checkAt_of_ne limiter key client now differs with same | ⟨gone, w, had, past⟩
  · rw [same]
    exact accounts
  · rw [had] at accounts
    rw [gone]
    simp only [durationSince] at past
    have apart : limiter.config.window ≤ now - w.started := past
    have started := accounts.2
    exact ⟨w.started, w.count, accounts.1, Or.inr (by omega)⟩

/-- At every moment what the limiter holds for a client accounts for what the client was allowed. -/
theorem accounts_after (on : limiter.enabled = true) {calls : List (IpAddr × Nat)} {later : Nat}
    (ordered : (calls.map Prod.snd).Pairwise (· ≤ ·)) (reached : ∀ call ∈ calls, now ≤ call.2)
    (ended : ∀ call ∈ calls, call.2 ≤ later) (passes : now ≤ later)
    (accounts : limiter.config.Accounts now times (limiter.windows.lookup key))
    : limiter.config.Accounts later ((limiter.allowedTimes key calls).reverse ++ times)
        ((limiter.after calls).windows.lookup key) := by
  induction calls generalizing limiter times now with
  | nil => exact accounts_later accounts passes
  | cons call calls ih =>
      obtain ⟨client, next⟩ := call
      obtain ⟨first, rest⟩ := List.pairwise_cons.mp ordered
      have here := accounts_later accounts (reached (client, next) List.mem_cons_self)
      have later (counts : List Nat) := @ih (limiter.checkAt client next).2 next counts
        (checkAt_enabled.trans on) rest (fun call member => first call.2 (List.mem_map_of_mem member))
        (fun call member => ended call (List.mem_cons_of_mem _ member))
        (ended (client, next) List.mem_cons_self)
      rw [checkAt_config] at later
      rw [allowedTimes, after]
      by_cases own : client = key
      · subst own
        have counted := later _ (accounts_own on here)
        by_cases allowed : (limiter.checkAt client next).1.isAllowed = true
        · rw [if_pos allowed] at counted
          rw [if_pos ⟨rfl, allowed⟩, List.reverse_cons, List.append_assoc]
          exact counted
        · rw [if_neg allowed] at counted
          rw [if_neg (fun both => allowed both.2)]
          exact counted
      · rw [if_neg (fun both => own both.1)]
        exact later _ (accounts_other own here)

-----------------------------------------------------------------------------------------
-- A client that was turned away
-----------------------------------------------------------------------------------------

/-- The client has no window that lasts until the given time. -/
def Clear (limiter : RateLimiter) (key : IpAddr) (time : Nat) : Prop :=
  ∀ w ∈ limiter.windows.lookup key, w.started + limiter.config.window ≤ time

/-- Who is turned away is told when its window has run out. -/
theorem clear_of_limited (on : limiter.enabled = true) {retryAfter : Nat}
    (accounts : limiter.config.Accounts now times (limiter.windows.lookup key))
    (limited : (limiter.checkAt key now).1 = .limited retryAfter)
    : (limiter.checkAt key now).2.Clear key (now + retryAfter) := by
  obtain ⟨grants, started, inside⟩ := accounts_entry accounts
  rcases @checkAt_cases limiter key now on with ⟨full, told, kept⟩ | ⟨left, allowed, kept⟩
  · intro w there
    rw [kept, Option.mem_some_iff] at there
    subst there
    have same := Decision.limited.inj (told.symm.trans limited)
    rw [checkAt_config]
    simp only [durationSince] at same
    omega
  · rw [limited] at allowed
    simp [Decision.isAllowed] at allowed

/-- Calls of other clients keep it so. -/
theorem Clear.other (differs : client ≠ key) {time : Nat} (clear : limiter.Clear key time)
    : (limiter.checkAt client now).2.Clear key time := by
  intro w there
  rw [checkAt_config]
  rcases @lookup_checkAt_of_ne limiter key client now differs with same | ⟨gone, _⟩
  · exact clear w (same ▸ there)
  · rw [gone] at there
    cases there

theorem Clear.others {time : Nat} {calls : List (IpAddr × Nat)} (clear : limiter.Clear key time)
    (differ : ∀ call ∈ calls, call.1 ≠ key)
    : (limiter.after calls).Clear key time := by
  induction calls generalizing limiter with
  | nil => exact clear
  | cons call calls ih =>
      exact ih (clear.other (differ call List.mem_cons_self))
        (fun call member => differ call (List.mem_cons_of_mem _ member))

/-- A call that is counted in a new window is allowed. -/
theorem Clear.allowed (on : limiter.enabled = true) {time : Nat} (clear : limiter.Clear key time)
    (reached : time ≤ now)
    : (limiter.checkAt key now).1.isAllowed = true := by
  have budget : 0 < limiter.config.requests := by
    simp only [enabled, Bool.and_eq_true, decide_eq_true_eq] at on
    exact on.2
  have fresh : limiter.entry key now = ⟨now, 0⟩ := by
    rcases @entry_cases limiter key now with ⟨fresh, _⟩ | ⟨w, had, _, inside⟩
    · exact fresh
    · have past := clear w had
      simp only [durationSince] at inside
      omega
  rcases @checkAt_cases limiter key now on with ⟨full, _⟩ | ⟨_, allowed, _⟩
  · rw [fresh] at full
    exact absurd full (not_le.mpr budget)
  · exact allowed

-----------------------------------------------------------------------------------------
-- Over all calls
-----------------------------------------------------------------------------------------

theorem after_config {calls : List (IpAddr × Nat)}
    : (limiter.after calls).config = limiter.config := by
  induction calls generalizing limiter with
  | nil => rfl
  | cons call calls ih => exact ih.trans checkAt_config

theorem after_append {calls more : List (IpAddr × Nat)}
    : limiter.after (calls ++ more) = (limiter.after calls).after more := by
  induction calls generalizing limiter with
  | nil => rfl
  | cons call calls ih => exact ih

theorem after_enabled {calls : List (IpAddr × Nat)}
    : (limiter.after calls).enabled = limiter.enabled := by
  simp only [enabled, after_config]

end RateLimiter

/-- In any interval no longer than the window a client is allowed twice the budget at most, and one
that was turned away is allowed again after the time that it was told.
-/
theorem rate_bounded (config : RateLimitConfig) (switchedOn : config.enabled = true)
    (budget : 0 < config.requests) (calls : List (IpAddr × Nat))
    (ordered : (calls.map Prod.snd).Pairwise (· ≤ ·)) (key : IpAddr)
    : (∀ first last, last ≤ first + config.window
        → within first last ((RateLimiter.new config).allowedTimes key calls) ≤ 2 * config.requests)
      ∧ ∀ before now between later rest retryAfter,
          calls = before ++ (key, now) :: (between ++ (key, later) :: rest)
          → (((RateLimiter.new config).after before).checkAt key now).1 = .limited retryAfter
          → (∀ call ∈ between, call.1 ≠ key) → now + retryAfter ≤ later
          → (((RateLimiter.new config).after (before ++ (key, now) :: between)).checkAt key
              later).1.isAllowed = true := by
  have on : (RateLimiter.new config).enabled = true := by
    simp [RateLimiter.enabled, RateLimiter.new, switchedOn, budget]
  have opened (now : Nat) : (RateLimiter.new config).config.Accounts now []
      ((RateLimiter.new config).windows.lookup key) :=
    RateLimiter.accounts_nothing config now
  constructor
  · intro first last short
    have ended : ∀ call ∈ calls, call.2 ≤ (calls.map Prod.snd).sum :=
      fun call member =>
        List.single_le_sum (fun time _ => Nat.zero_le time) _ (List.mem_map_of_mem member)
    obtain ⟨start, count, grants⟩ := RateLimiter.accounts_grants (RateLimiter.accounts_after on
      ordered (fun call _ => Nat.zero_le call.2) ended (Nat.zero_le _) (opened 0))
    have bound := grants.within_le short
    rw [List.append_nil, within, List.countP_reverse] at bound
    exact bound
  · intro before now between later rest retryAfter split limited differ waited
    subst split
    rw [List.map_append, List.pairwise_append] at ordered
    obtain ⟨orderedBefore, _, across⟩ := ordered
    have accounts := RateLimiter.accounts_after on orderedBefore (fun call _ => Nat.zero_le call.2)
      (fun call member => across call.2 (List.mem_map_of_mem member) now List.mem_cons_self)
      (Nat.zero_le now) (opened 0)
    rw [← @RateLimiter.after_config (.new config) before] at accounts
    have onThere : ((RateLimiter.new config).after before).enabled = true :=
      RateLimiter.after_enabled.trans on
    have clear := RateLimiter.clear_of_limited onThere accounts limited
    rw [RateLimiter.after_append]
    refine (clear.others differ).allowed ?_ waited
    exact RateLimiter.after_enabled.trans (RateLimiter.checkAt_enabled.trans onThere)

/-- A client with a budget of one request that calls twice at once, and again when its second is
over.
-/
theorem rate_bounded_one
    : within 0 1000000000 ((RateLimiter.new ⟨true, 1, 0⟩).allowedTimes (.v4 1)
          [(.v4 1, 0), (.v4 1, 0), (.v4 1, 1000000000)]) ≤ 2
      ∧ (((RateLimiter.new ⟨true, 1, 0⟩).after [(.v4 1, 0), (.v4 1, 0)]).checkAt (.v4 1)
          1000000000).1.isAllowed = true := by
  have bounded := rate_bounded ⟨true, 1, 0⟩ rfl (by decide)
    [(.v4 1, 0), (.v4 1, 0), (.v4 1, 1000000000)] (by decide) (.v4 1)
  exact ⟨bounded.1 0 1000000000 (by decide), bounded.2 [(.v4 1, 0)] 0 [] 1000000000 [] 1000000000
    rfl (by decide) (by simp) (by decide)⟩

end WslVpn

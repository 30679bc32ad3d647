import WslVpn.AddressSpace.Ip
import WslVpn.Records.Map

/-! The request counter of the control plane's middleware, one fixed window for each client. Times
are nanoseconds since some instant.
-/

namespace WslVpn

open AddressSpace Records

structure RateLimitConfig where
  enabled : Bool
  requests : Nat
  windowSecs : Nat

/-- A second of a `Duration`. -/
def nanosPerSec : Nat := 1000000000

/-- A configured window of no seconds is one of one second. -/
def RateLimitConfig.window (config : RateLimitConfig) : Nat :=
  max config.windowSecs 1 * nanosPerSec

inductive Decision where
  | allowed (remaining : Nat)
  | limited (retryAfter : Nat)
  deriving DecidableEq

def Decision.isAllowed : Decision → Bool
  | .allowed _ => true
  | .limited _ => false

structure Window where
  started : Nat
  count : Nat

structure RateLimiter where
  config : RateLimitConfig
  windows : Map IpAddr Window

/-- Above this many tracked clients, expired entries are swept. -/
def sweepThreshold : Nat := 10000

namespace RateLimiter

def new (config : RateLimitConfig) : RateLimiter := ⟨config, ∅⟩

def enabled (limiter : RateLimiter) : Bool :=
  limiter.config.enabled && decide (0 < limiter.config.requests)

/-- `duration_since` saturates: an earlier instant is no time away. -/
def durationSince (now started : Nat) : Nat := now - started

/-- The table without its expired windows, when it has grown too large. -/
def swept (limiter : RateLimiter) (now : Nat) : Map IpAddr Window :=
  if limiter.windows.keys.length > sweepThreshold then
    limiter.windows.retain (fun _ w => durationSince now w.started < limiter.config.window)
  else
    limiter.windows

/-- The window that a request is counted in. -/
def entry (limiter : RateLimiter) (key : IpAddr) (now : Nat) : Window :=
  let found := ((limiter.swept now).lookup key).getD ⟨now, 0⟩
  if durationSince now found.started ≥ limiter.config.window then ⟨now, 0⟩ else found

def checkAt (limiter : RateLimiter) (key : IpAddr) (now : Nat) : Decision × RateLimiter :=
  if ¬ limiter.enabled then
    (.allowed limiter.config.requests, limiter)
  else
    let entry := limiter.entry key now
    if entry.count ≥ limiter.config.requests then
      (.limited (limiter.config.window - durationSince now entry.started),
        { limiter with windows := (limiter.swept now).insert key entry })
    else
      (.allowed (limiter.config.requests - (entry.count + 1)),
        { limiter with
          windows := (limiter.swept now).insert key { entry with count := entry.count + 1 } })

/-- The limiter after a sequence of calls, each with its client and its time. -/
def after (limiter : RateLimiter) : List (IpAddr × Nat) → RateLimiter
  | [] => limiter
  | (key, now) :: calls => (limiter.checkAt key now).2.after calls

/-- The times at which calls of the client were allowed. -/
def allowedTimes (limiter : RateLimiter) (key : IpAddr) : List (IpAddr × Nat) → List Nat
  | [] => []
  | (client, now) :: calls =>
      let rest := (limiter.checkAt client now).2.allowedTimes key calls
      if client = key ∧ (limiter.checkAt client now).1.isAllowed then now :: rest else rest

-----------------------------------------------------------------------------------------
-- One call
-----------------------------------------------------------------------------------------

variable {limiter : RateLimiter} {key client : IpAddr} {now : Nat}

@[simp] theorem checkAt_config : (limiter.checkAt client now).2.config = limiter.config := by
  simp only [checkAt]
  split_ifs <;> rfl

@[simp] theorem checkAt_enabled : (limiter.checkAt client now).2.enabled = limiter.enabled := by
  simp only [enabled, checkAt_config]

/-- The sweep drops a window only when it has run out. -/
theorem lookup_swept
    : (limiter.swept now).lookup key = limiter.windows.lookup key
      ∨ ((limiter.swept now).lookup key = none
        ∧ ∃ w, limiter.windows.lookup key = some w
          ∧ limiter.config.window ≤ durationSince now w.started) := by
  rw [swept]
  split
  · rw [Map.lookup_retain]
    cases found : limiter.windows.lookup key with
    | none => exact Or.inl rfl
    | some w =>
        by_cases inside : durationSince now w.started < limiter.config.window
        · exact Or.inl (by simp [inside])
        · exact Or.inr ⟨by simpa using not_lt.mp inside, w, rfl, not_lt.mp inside⟩
  · exact Or.inl rfl

/-- What a call is counted in: the window that the client has, if it is not over, or a new one. -/
theorem entry_cases
    : limiter.entry key now = ⟨now, 0⟩
        ∧ (∀ w, limiter.windows.lookup key = some w
          → limiter.config.window ≤ durationSince now w.started)
      ∨ ∃ w, limiter.windows.lookup key = some w ∧ limiter.entry key now = w
          ∧ durationSince now w.started < limiter.config.window := by
  rcases @lookup_swept limiter key now with same | ⟨gone, w, had, past⟩
  · rw [entry, same]
    cases found : limiter.windows.lookup key with
    | none => exact Or.inl (by simp)
    | some w =>
        by_cases past : durationSince now w.started ≥ limiter.config.window
        · exact Or.inl ⟨by simp [past], by simpa using past⟩
        · exact Or.inr ⟨w, rfl, by simp [past], not_le.mp past⟩
  · refine Or.inl ⟨by simp [entry, gone], ?_⟩
    intro held found
    cases had.symm.trans found
    exact past

/-- A call of another client takes a window away only when that has run out. -/
theorem lookup_checkAt_of_ne (other : client ≠ key)
    : (limiter.checkAt client now).2.windows.lookup key = limiter.windows.lookup key
      ∨ ((limiter.checkAt client now).2.windows.lookup key = none
        ∧ ∃ w, limiter.windows.lookup key = some w
          ∧ limiter.config.window ≤ durationSince now w.started) := by
  by_cases on : limiter.enabled = true
  · have kept : (limiter.checkAt client now).2.windows.lookup key
        = (limiter.swept now).lookup key := by
      simp only [checkAt, on, not_true_eq_false, if_false]
      split_ifs <;> exact AList.lookup_insert_ne other.symm
    rw [kept]
    exact lookup_swept
  · exact Or.inl (by simp [checkAt, on])

/-- What one call of an enabled limiter answers and keeps. -/
theorem checkAt_cases (on : limiter.enabled = true)
    : (limiter.config.requests ≤ (limiter.entry key now).count
        ∧ (limiter.checkAt key now).1
          = .limited (limiter.config.window - durationSince now (limiter.entry key now).started)
        ∧ (limiter.checkAt key now).2.windows.lookup key = some (limiter.entry key now))
      ∨ ((limiter.entry key now).count < limiter.config.requests
        ∧ (limiter.checkAt key now).1.isAllowed = true
        ∧ (limiter.checkAt key now).2.windows.lookup key
          = some ⟨(limiter.entry key now).started, (limiter.entry key now).count + 1⟩) := by
  by_cases full : (limiter.entry key now).count ≥ limiter.config.requests
  · refine Or.inl ⟨full, ?_⟩
    simp [checkAt, on, full]
  · refine Or.inr ⟨not_le.mp full, ?_⟩
    simp [checkAt, on, full, Decision.isAllowed]

end RateLimiter

end WslVpn

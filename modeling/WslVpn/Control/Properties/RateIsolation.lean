import WslVpn.Control.RateLimit

/-! Clients do not take each other's requests: the sweep takes away only what would start anew anyway. -/

namespace WslVpn

open AddressSpace Records

namespace RateLimiter

/-- What each call is answered, with its client. -/
def decisions (limiter : RateLimiter) : List (IpAddr × Nat) → List (IpAddr × Decision)
  | [] => []
  | (client, now) :: calls =>
      (client, (limiter.checkAt client now).1) :: (limiter.checkAt client now).2.decisions calls

/-- From now on the two limiters count the client's calls in the same windows. -/
structure Agree (key : IpAddr) (now : Nat) (limiter other : RateLimiter) : Prop where
  config : limiter.config = other.config
  entry : ∀ later, now ≤ later → limiter.entry key later = other.entry key later

variable {limiter other : RateLimiter} {key client : IpAddr} {now : Nat}

/-- A window that is over counts as none. -/
theorem entry_of_over
    (past : ∀ w, limiter.windows.lookup key = some w
      → limiter.config.window ≤ durationSince now w.started)
    : limiter.entry key now = ⟨now, 0⟩ := by
  rcases @entry_cases limiter key now with ⟨fresh, _⟩ | ⟨w, had, _, inside⟩
  · exact fresh
  · have ended := past w had
    omega

/-- A window that is not over is the one that counts. -/
theorem entry_of_inside {w : Window} (had : limiter.windows.lookup key = some w)
    (inside : durationSince now w.started < limiter.config.window) : limiter.entry key now = w := by
  rcases @entry_cases limiter key now with ⟨_, past⟩ | ⟨found, had', same, _⟩
  · have ended := past w had
    omega
  · rw [had] at had'
    cases had'
    exact same

/-- The window of a call depends on the client's own one alone. -/
theorem entry_congr (config : limiter.config = other.config)
    (same : limiter.windows.lookup key = other.windows.lookup key)
    : limiter.entry key now = other.entry key now := by
  rcases @entry_cases limiter key now with ⟨fresh, past⟩ | ⟨w, had, found, inside⟩
  · rw [fresh]
    refine (entry_of_over ?_).symm
    intro w had
    rw [← config]
    exact past w (same.trans had)
  · rw [found]
    exact (entry_of_inside (same.symm.trans had) (config ▸ inside)).symm

theorem Agree.later {later : Nat} (agree : Agree key now limiter other) (passes : now ≤ later)
    : Agree key later limiter other :=
  ⟨agree.config, fun time reached => agree.entry time (passes.trans reached)⟩

/-- A call of another client, on one side only. -/
theorem Agree.aside (agree : Agree key now limiter other) (differs : client ≠ key)
    : Agree key now (limiter.checkAt client now).2 other := by
  refine ⟨checkAt_config.trans agree.config, ?_⟩
  intro later reached
  refine Eq.trans ?_ (agree.entry later reached)
  rcases @lookup_checkAt_of_ne limiter key client now differs with same | ⟨gone, w, had, past⟩
  · exact entry_congr checkAt_config same
  · have ended : limiter.entry key later = ⟨later, 0⟩ := by
      apply entry_of_over
      intro found there
      rw [had] at there
      cases there
      simp only [durationSince] at past ⊢
      omega
    rw [ended]
    apply entry_of_over
    intro found there
    rw [gone] at there
    cases there

/-- A call of the client itself, on both sides. -/
theorem Agree.together (agree : Agree key now limiter other)
    : (limiter.checkAt key now).1 = (other.checkAt key now).1
      ∧ Agree key now (limiter.checkAt key now).2 (other.checkAt key now).2 := by
  have entries := agree.entry now (Nat.le_refl now)
  have switches : limiter.enabled = other.enabled := by rw [enabled, enabled, agree.config]
  have answers : (limiter.checkAt key now).1 = (other.checkAt key now).1 := by
    simp only [checkAt, switches, entries, agree.config]
    split_ifs <;> rfl
  refine ⟨answers, checkAt_config.trans (agree.config.trans checkAt_config.symm), ?_⟩
  intro later reached
  by_cases on : limiter.enabled = true
  · have on' := switches ▸ on
    refine entry_congr (checkAt_config.trans (agree.config.trans checkAt_config.symm)) ?_
    rcases @checkAt_cases limiter key now on with ⟨full, _, kept⟩ | ⟨left, _, kept⟩
    · rcases @checkAt_cases other key now on' with ⟨_, _, kept'⟩ | ⟨left, _⟩
      · rw [kept, kept', entries]
      · rw [entries, agree.config] at full
        omega
    · rcases @checkAt_cases other key now on' with ⟨full, _⟩ | ⟨_, _, kept'⟩
      · rw [entries, agree.config] at left
        omega
      · rw [kept, kept', entries]
  · have off : ¬ other.enabled = true := switches ▸ on
    have still : (limiter.checkAt key now).2 = limiter := by simp [checkAt, on]
    have still' : (other.checkAt key now).2 = other := by simp [checkAt, off]
    rw [still, still']
    exact agree.entry later reached

/-- By induction on the calls. -/
theorem Agree.decisions {calls : List (IpAddr × Nat)} (agree : Agree key now limiter other)
    (ordered : (calls.map Prod.snd).Pairwise (· ≤ ·)) (reached : ∀ call ∈ calls, now ≤ call.2)
    : (limiter.decisions calls).filter (fun answer => answer.1 = key)
      = other.decisions (calls.filter (fun call => call.1 = key)) := by
  induction calls generalizing limiter other now with
  | nil => rfl
  | cons call calls ih =>
      obtain ⟨client, next⟩ := call
      obtain ⟨first, rest⟩ := List.pairwise_cons.mp ordered
      have here := agree.later (reached (client, next) List.mem_cons_self)
      have after : ∀ call ∈ calls, next ≤ call.2 :=
        fun call member => first call.2 (List.mem_map_of_mem member)
      rw [RateLimiter.decisions]
      by_cases own : client = key
      · subst own
        obtain ⟨answer, agree⟩ := here.together
        have later := ih agree rest after
        simp only [decide_true, List.filter_cons_of_pos, RateLimiter.decisions, answer, later]
      · rw [List.filter_cons_of_neg (by simp [own]), List.filter_cons_of_neg (by simp [own])]
        exact ih (here.aside own) rest after

end RateLimiter

/-- What a client is answered is what it is answered when it is alone. -/
theorem rate_isolated (config : RateLimitConfig) (calls : List (IpAddr × Nat))
    (ordered : (calls.map Prod.snd).Pairwise (· ≤ ·)) (key : IpAddr)
    : ((RateLimiter.new config).decisions calls).filter (fun answer => answer.1 = key)
      = (RateLimiter.new config).decisions (calls.filter (fun call => call.1 = key)) := by
  have alone : RateLimiter.Agree key 0 (.new config) (.new config) := ⟨rfl, fun _ _ => rfl⟩
  exact alone.decisions ordered (fun call _ => Nat.zero_le call.2)

/-- One client between two calls of another. -/
theorem rate_isolated_two
    : ((RateLimiter.new ⟨true, 1, 60⟩).decisions [(.v4 1, 0), (.v4 2, 3), (.v4 1, 5)]).filter
        (fun answer => answer.1 = .v4 1)
      = (RateLimiter.new ⟨true, 1, 60⟩).decisions
        ([(.v4 1, 0), (.v4 2, 3), (.v4 1, 5)].filter (fun call => call.1 = .v4 1)) :=
  rate_isolated ⟨true, 1, 60⟩ [(.v4 1, 0), (.v4 2, 3), (.v4 1, 5)] (by decide) (.v4 1)

end WslVpn

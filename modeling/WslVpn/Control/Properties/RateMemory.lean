import WslVpn.Control.Properties.RateBound

/-! The request counter holds few windows, however many clients there are: above the threshold it
keeps none but those that are still running.
-/

namespace WslVpn

open AddressSpace Records

/-- The clients that have called since the windows that end now began. -/
def recentClients (width now : Nat) (calls : List (IpAddr × Nat)) : List IpAddr :=
  ((calls.filter (fun call => RateLimiter.durationSince now call.2 < width)).map Prod.fst).dedup

namespace RateLimiter

/-- Each window was opened by a call of its client. -/
def Opened (calls : List (IpAddr × Nat)) (windows : Map IpAddr Window) : Prop :=
  ∀ key w, windows.lookup key = some w → (key, w.started) ∈ calls

variable {limiter : RateLimiter} {key client : IpAddr} {now : Nat} {past : List (IpAddr × Nat)}

/-- A client of the table has a window in it. -/
theorem mem_keys_iff {windows : Map IpAddr Window}
    : key ∈ windows.keys ↔ ∃ w, windows.lookup key = some w := by
  rw [← AList.mem_keys, ← AList.lookup_isSome, Option.isSome_iff_exists]

/-- The window that a call is counted in was opened by an earlier call, or by this one. -/
theorem Opened.entry (opened : Opened past limiter.windows)
    : (key, (limiter.entry key now).started) ∈ past ++ [(key, now)] := by
  rcases @entry_cases limiter key now with ⟨fresh, _⟩ | ⟨w, had, same, _⟩
  · have starts : (limiter.entry key now).started = now := congrArg Window.started fresh
    rw [starts]
    exact List.mem_append_right _ (List.mem_singleton_self _)
  · have starts : (limiter.entry key now).started = w.started := congrArg Window.started same
    rw [starts]
    exact List.mem_append_left _ (opened key w had)

/-- One call. -/
theorem Opened.checkAt (opened : Opened past limiter.windows)
    : Opened (past ++ [(client, now)]) (limiter.checkAt client now).2.windows := by
  intro key w had
  by_cases own : client = key
  · subst own
    by_cases on : limiter.enabled = true
    · have here : (client, (limiter.entry client now).started) ∈ past ++ [(client, now)] :=
        opened.entry
      suffices starts : (limiter.entry client now).started = w.started from starts ▸ here
      rcases @checkAt_cases limiter client now on with ⟨_, _, kept⟩ | ⟨_, _, kept⟩
      · exact congrArg Window.started (Option.some.inj (kept.symm.trans had))
      · obtain ⟨started, count⟩ := w
        exact (Window.mk.inj (Option.some.inj (kept.symm.trans had))).1
    · have still : (limiter.checkAt client now).2 = limiter := by simp [RateLimiter.checkAt, on]
      rw [still] at had
      exact List.mem_append_left _ (opened client w had)
  · rcases @lookup_checkAt_of_ne limiter key client now own with same | ⟨gone, _⟩
    · exact List.mem_append_left _ (opened key w (same.symm.trans had))
    · rw [gone] at had
      cases had

/-- By induction on the calls. -/
theorem Opened.after {calls : List (IpAddr × Nat)} (opened : Opened past limiter.windows)
    : Opened (past ++ calls) (limiter.after calls).windows := by
  induction calls generalizing limiter past with
  | nil => rwa [List.append_nil]
  | cons call calls ih =>
      obtain ⟨client, now⟩ := call
      have later := ih (@Opened.checkAt limiter client now past opened)
      rwa [List.append_assoc, List.singleton_append] at later

/-- What the sweep leaves of a table that had grown too large is still running. -/
theorem Opened.length_swept (opened : Opened past limiter.windows)
    : (limiter.swept now).keys.length
      ≤ max sweepThreshold (recentClients limiter.config.window now past).length := by
  by_cases large : limiter.windows.keys.length > sweepThreshold
  · refine le_max_of_le_right (List.Subperm.length_le ?_)
    refine List.subperm_of_subset (limiter.swept now).keys_nodup ?_
    intro key there
    obtain ⟨w, held⟩ := mem_keys_iff.mp there
    rw [swept, if_pos large, Map.lookup_retain, Option.filter_eq_some_iff] at held
    obtain ⟨had, running⟩ := held
    refine List.mem_dedup.mpr (List.mem_map.mpr ⟨(key, w.started), ?_, rfl⟩)
    exact List.mem_filter.mpr ⟨opened key w had, running⟩
  · rw [swept, if_neg large]
    exact le_max_of_le_left (not_lt.mp large)

/-- A call adds at most its own client. -/
theorem length_checkAt (on : limiter.enabled = true)
    : (limiter.checkAt client now).2.windows.keys.length
      ≤ (limiter.swept now).keys.length + 1 := by
  have inserted (w : Window)
      : ((limiter.swept now).insert client w).keys.length
        ≤ (limiter.swept now).keys.length + 1 := by
    rw [AList.keys_insert, List.length_cons]
    exact Nat.succ_le_succ List.length_erase_le
  by_cases full : (limiter.entry client now).count ≥ limiter.config.requests
  · simpa [checkAt, on, full] using inserted (limiter.entry client now)
  · have more := inserted ⟨(limiter.entry client now).started, (limiter.entry client now).count + 1⟩
    simpa [checkAt, on, full] using more

/-- A limiter that is off stays as it is, by induction on the calls. -/
theorem after_off (off : limiter.enabled = false) (calls : List (IpAddr × Nat))
    : limiter.after calls = limiter := by
  induction calls with
  | nil => rfl
  | cons call calls ih =>
      obtain ⟨client, now⟩ := call
      have still : (limiter.checkAt client now).2 = limiter := by simp [checkAt, off]
      rw [after, still, ih]

end RateLimiter

open RateLimiter

/-- However many clients have called, and whenever, the table that the next call leaves holds one window
more than the threshold or than the clients of the last window, whichever is more, and none of a client
that has not called.
-/
theorem tracked_bounded (config : RateLimitConfig) (past : List (IpAddr × Nat)) (client : IpAddr)
    (now : Nat)
    : let windows := (((RateLimiter.new config).after past).checkAt client now).2.windows
      windows.keys.length
          ≤ max sweepThreshold (recentClients config.window now past).length + 1
        ∧ ∀ key ∈ windows.keys, ∃ time, (key, time) ∈ past ++ [(client, now)] := by
  have opened : Opened past ((RateLimiter.new config).after past).windows := by
    have nothing : Opened [] (RateLimiter.new config).windows := by
      intro key w had
      cases had
    exact nothing.after
  refine ⟨?_, ?_⟩
  · by_cases on : (RateLimiter.new config).enabled = true
    · have grows := @length_checkAt ((RateLimiter.new config).after past) client now
        (after_enabled.trans on)
      have swept := @Opened.length_swept ((RateLimiter.new config).after past) now past opened
      rw [after_config] at swept
      exact grows.trans (Nat.succ_le_succ swept)
    · have off : (RateLimiter.new config).enabled = false := by simpa using on
      have still : ((RateLimiter.new config).checkAt client now).2 = RateLimiter.new config := by
        simp [RateLimiter.checkAt, off]
      rw [after_off off, still]
      exact Nat.zero_le _
  · intro key there
    obtain ⟨w, had⟩ := mem_keys_iff.mp there
    exact ⟨w.started, opened.checkAt key w had⟩

end WslVpn

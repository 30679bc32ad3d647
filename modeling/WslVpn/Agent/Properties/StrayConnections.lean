import WslVpn.Agent.Callback
import WslVpn.Records.Latest

/-! Connections to the loopback listener that are not the login, before the one that is. One that is reset
fails the login, and one that stays open without a line holds it open.
-/

namespace WslVpn.Agent

open Dns (Text)
open Records (LastOf)
open Templates

-----------------------------------------------------------------------------------------
-- What a connection sends
-----------------------------------------------------------------------------------------

def bytesOf (chunks : List Chunk) : List Byte := (chunks.map Chunk.bytes).flatten

namespace Connection

variable (connection : Connection)

/-- The connection sends a whole first line, with a second word in it. -/
def Requests (target : Text) : Prop :=
  ∃ place, FirstAt lineEnd (bytesOf connection.chunks) place
    ∧ requestTarget ((bytesOf connection.chunks).take place) = some target

/-- The line end comes with a read that has 8192 bytes before it at most. -/
def InTime : Prop :=
  ∃ before chunk after, connection.chunks = before ++ chunk :: after ∧ (bytesOf before).length ≤ 8192
    ∧ lineEnd <:+: bytesOf (before ++ [chunk])

/-- The connection is closed, or sends a whole line or more than the listener reads of one. -/
def Settles : Prop :=
  connection.ending = .closed ∨ lineEnd <:+: bytesOf connection.chunks
    ∨ 8192 < (bytesOf connection.chunks).length

end Connection

section Requests

variable (parse : Text → Option CallbackUrl)

/-- The library reads the target as a URL of the callback path. -/
def AtCallback (target : Text) (url : CallbackUrl) : Prop :=
  parse ("http://127.0.0.1".toList ++ target) = some url ∧ url.path = callbackPath

def Stray (connection : Connection) : Prop :=
  ∀ target, connection.Requests target → ∀ url, ¬ AtCallback parse target url

/-- The query has the code, and no error. -/
def CarriesCode (url : CallbackUrl) (code : Text) : Prop :=
  LastOf (fun pair => pair.1 = "code".toList) url.queryPairs ("code".toList, code)
  ∧ ∀ pair ∈ url.queryPairs, pair.1 ≠ "error".toList

/-- The connection that the browser makes when the login is over. -/
def Real (connection : Connection) (code : Text) : Prop :=
  ∃ target url, connection.Requests target ∧ AtCallback parse target url ∧ CarriesCode url code

/-- A request that is read is answered, and anything else dropped. -/
structure Answered (connection : Connection) (answer : Option Text) : Prop where
  request
    : connection.InTime → (∃ target, connection.Requests target) → answer = some notFoundPage
  other
    : ¬ (connection.InTime ∧ ∃ target, connection.Requests target) → answer = none

/-- Whatever connects later, the wait discards the strays and returns the code. -/
def GoesOn (strays : List Connection) (real : Connection) (code : Text) : Prop :=
  ∀ later, ∃ answers,
    waitForCode parse (strays ++ real :: later) = (answers ++ [some signedInPage], .code code)
    ∧ List.Forall₂ Answered strays answers

end Requests

-----------------------------------------------------------------------------------------
-- Reading a line
-----------------------------------------------------------------------------------------

section Reading

/-- The line end comes in time behind what has been read. -/
def InTimeFrom (buffer : List Byte) (chunks : List Chunk) : Prop :=
  ∃ before chunk after, chunks = before ++ chunk :: after
    ∧ (buffer ++ bytesOf before).length ≤ 8192 ∧ lineEnd <:+: buffer ++ bytesOf (before ++ [chunk])

theorem inTimeFrom_cons {buffer : List Byte} {chunk : Chunk} {rest : List Chunk}
    (never : ¬ lineEnd <:+: buffer ++ chunk.bytes)
    : InTimeFrom buffer (chunk :: rest) ↔ InTimeFrom (buffer ++ chunk.bytes) rest := by
  constructor
  · intro inTime
    obtain ⟨before, last, after, split, short, ends⟩ := inTime
    cases before with
    | nil =>
        obtain ⟨rfl, _⟩ := List.cons.inj split
        exact absurd (by simpa [bytesOf] using ends) never
    | cons head before =>
        obtain ⟨rfl, tail⟩ := List.cons.inj split
        exact ⟨before, last, after, tail, by simpa [bytesOf] using short,
          by simpa [bytesOf] using ends⟩
  · intro inTime
    obtain ⟨before, last, after, split, short, ends⟩ := inTime
    exact ⟨chunk :: before, last, after, by rw [split, List.cons_append],
      by simpa [bytesOf] using short, by simpa [bytesOf] using ends⟩

/-- What the loop comes to, by induction on the reads that are left. -/
theorem readTargetFrom_cases (chunks : List Chunk) (ending : Ending) {buffer : List Byte}
    (never : ¬ lineEnd <:+: buffer) (short : buffer.length ≤ 8192)
    : (∃ place, FirstAt lineEnd (buffer ++ bytesOf chunks) place ∧ InTimeFrom buffer chunks
        ∧ readTargetFrom buffer chunks ending
          = .target (requestTarget ((buffer ++ bytesOf chunks).take place)))
      ∨ (¬ InTimeFrom buffer chunks
        ∧ (ending = .closed ∨ 8192 < (buffer ++ bytesOf chunks).length)
        ∧ readTargetFrom buffer chunks ending = .target none)
      ∨ (¬ InTimeFrom buffer chunks ∧ ending ≠ .closed
        ∧ ¬ lineEnd <:+: buffer ++ bytesOf chunks ∧ (buffer ++ bytesOf chunks).length ≤ 8192
        ∧ (readTargetFrom buffer chunks ending = .failed
          ∨ readTargetFrom buffer chunks ending = .blocked)) := by
  induction chunks generalizing buffer with
  | nil =>
      have late : ¬ InTimeFrom buffer [] := by
        simp [InTimeFrom]
      cases ending with
      | closed => exact .inr (.inl ⟨late, .inl rfl, rfl⟩)
      | reset => exact .inr (.inr ⟨late, by simp, by simpa [bytesOf] using never, by simpa [bytesOf] using short, .inl rfl⟩)
      | silent => exact .inr (.inr ⟨late, by simp, by simpa [bytesOf] using never, by simpa [bytesOf] using short, .inr rfl⟩)
  | cons chunk rest ih =>
      have whole : buffer ++ bytesOf (chunk :: rest) = (buffer ++ chunk.bytes) ++ bytesOf rest := by
        simp [bytesOf]
      rw [whole, readTargetFrom]
      cases found : find lineEnd (buffer ++ chunk.bytes) with
      | some place =>
          obtain ⟨first, inside⟩ := find_some found
          refine .inl ⟨place, first.append _, ⟨[], chunk, rest, rfl, ?_, ?_⟩, ?_⟩
          · simpa [bytesOf] using short
          · simpa [bytesOf] using first.1.isInfix.trans (List.drop_suffix place _).isInfix
          · rw [List.take_append_of_le_length inside]
      | none =>
          have still : ¬ lineEnd <:+: buffer ++ chunk.bytes := by
            intro inside
            obtain ⟨place, first⟩ := exists_firstAt inside
            exact find_none found place first
          rw [inTimeFrom_cons still]
          by_cases long : 8192 < (buffer ++ chunk.bytes).length
          · refine .inr (.inl ⟨?_, .inr ?_, if_pos long⟩)
            · intro inTime
              obtain ⟨before, _, _, _, bound, _⟩ := inTime
              rw [List.length_append] at bound
              omega
            · rw [List.length_append]
              omega
          · simp only [if_neg long]
            exact ih still (Nat.not_lt.mp long)

end Reading

-----------------------------------------------------------------------------------------
-- The wait
-----------------------------------------------------------------------------------------

section Wait

variable {parse : Text → Option CallbackUrl} {connection : Connection} {code : Text}

/-- A connection is read as a whole line, as none, or not at all. -/
theorem readRequestTarget_cases (connection : Connection)
    : (∃ place, FirstAt lineEnd (bytesOf connection.chunks) place ∧ connection.InTime
        ∧ readRequestTarget connection
          = .target (requestTarget ((bytesOf connection.chunks).take place)))
      ∨ (¬ connection.InTime ∧ connection.Settles ∧ readRequestTarget connection = .target none)
      ∨ (¬ connection.InTime ∧ ¬ connection.Settles
        ∧ (readRequestTarget connection = .failed ∨ readRequestTarget connection = .blocked)) := by
  have never : ¬ lineEnd <:+: ([] : List Byte) := by simp [lineEnd]
  rcases readTargetFrom_cases connection.chunks connection.ending never (Nat.zero_le _) with
    ⟨place, first, inTime, read⟩ | ⟨late, settles, read⟩ | ⟨late, opened, noEnd, short, read⟩
  · exact .inl ⟨place, first, inTime, read⟩
  · exact .inr (.inl ⟨late, settles.imp_right .inr, read⟩)
  · refine .inr (.inr ⟨late, ?_, read⟩)
    intro settles
    rcases settles with closed | ends | long
    · exact opened closed
    · exact noEnd ends
    · exact absurd long (Nat.not_lt.mpr short)

theorem requests_of_first {place : Nat} (first : FirstAt lineEnd (bytesOf connection.chunks) place)
    (target : Text)
    : connection.Requests target
      ↔ requestTarget ((bytesOf connection.chunks).take place) = some target := by
  constructor
  · intro requests
    obtain ⟨place', first', names⟩ := requests
    rwa [first.unique first']
  · exact fun names => ⟨place, first, names⟩

theorem parseCallback_stray {target : Text} (stray : ∀ url, ¬ AtCallback parse target url)
    : parseCallback parse target = .notTheCallback := by
  unfold parseCallback
  cases parsed : parse ("http://127.0.0.1".toList ++ target) with
  | none => rfl
  | some url =>
      have elsewhere : url.path ≠ callbackPath := fun same => stray url ⟨parsed, same⟩
      simp [elsewhere]

theorem CallbackQuery.read_error {pair : Text × Text} (query : CallbackQuery)
    (clean : pair.1 ≠ "error".toList) : (query.read pair).error = query.error := by
  rw [CallbackQuery.read, if_neg clean]
  split
  · rfl
  · split <;> rfl

theorem CallbackQuery.read_code {pair : Text × Text} (query : CallbackQuery)
    (other : pair.1 ≠ "code".toList) : (query.read pair).code = query.code := by
  rw [CallbackQuery.read, if_neg other]
  split
  · rfl
  · split <;> rfl

/-- Parameters of other names leave a field alone, by induction on the query. -/
theorem foldl_read {Field : Type} {field : CallbackQuery → Field} {name : Text}
    (one : ∀ query pair, pair.1 ≠ name → field (CallbackQuery.read query pair) = field query)
    {pairs : List (Text × Text)} (other : ∀ pair ∈ pairs, pair.1 ≠ name) (query : CallbackQuery)
    : field (pairs.foldl CallbackQuery.read query) = field query := by
  induction pairs generalizing query with
  | nil => rfl
  | cons pair rest ih =>
      obtain ⟨here, behind⟩ := List.forall_mem_cons.mp other
      rw [List.foldl_cons, ih behind, one query pair here]

theorem parseCallback_real {target : Text} {url : CallbackUrl} (located : AtCallback parse target url)
    (carries : CarriesCode url code) : parseCallback parse target = .code code := by
  obtain ⟨⟨before, after, split, _, later⟩, clean⟩ := carries
  have error : (url.queryPairs.foldl CallbackQuery.read ⟨none, none, none⟩).error = none :=
    foldl_read (fun query _ => query.read_error) clean _
  have found : (url.queryPairs.foldl CallbackQuery.read ⟨none, none, none⟩).code = some code := by
    rw [split, List.foldl_append, List.foldl_cons, foldl_read (fun query _ => query.read_code) later,
      CallbackQuery.read, if_pos rfl]
  unfold parseCallback
  rw [located.1]
  simp only [located.2, ne_eq, not_true_eq_false, if_false, error, found]

/-- A stray connection is passed over where it settles, and decides the wait otherwise. -/
theorem stray_step (stray : Stray parse connection)
    : (connection.Settles ∧ ∃ answer, Answered connection answer
        ∧ ∀ later, waitForCode parse (connection :: later)
          = (answer :: (waitForCode parse later).1, (waitForCode parse later).2))
      ∨ (¬ connection.Settles ∧ ∀ later code, (waitForCode parse (connection :: later)).2 ≠ .code code) := by
  rcases readRequestTarget_cases connection with
    ⟨place, first, inTime, read⟩ | ⟨late, settles, read⟩ | ⟨_, unsettled, read⟩
  · have requests := requests_of_first first
    have settles : connection.Settles :=
      .inr (.inl (first.1.isInfix.trans (List.drop_suffix place _).isInfix))
    refine .inl ⟨settles, ?_⟩
    cases named : requestTarget ((bytesOf connection.chunks).take place) with
    | none =>
        refine ⟨none, ⟨?_, fun _ => rfl⟩, ?_⟩
        · intro _ asks
          obtain ⟨target, asks⟩ := asks
          rw [requests target, named] at asks
          cases asks
        · intro later
          rw [waitForCode, read, named]
    | some target =>
        have asks : connection.Requests target := (requests target).mpr named
        refine ⟨some notFoundPage, ⟨fun _ _ => rfl, fun other => ?_⟩, ?_⟩
        · exact absurd ⟨inTime, target, asks⟩ other
        · intro later
          rw [waitForCode, read, named]
          simp only [parseCallback_stray (stray target asks)]
  · refine .inl ⟨settles, none, ⟨fun inTime => absurd inTime late, fun _ => rfl⟩, fun later => ?_⟩
    rw [waitForCode, read]
  · refine .inr ⟨unsettled, fun later code => ?_⟩
    rcases read with read | read <;> simp [waitForCode, read]

/-- The strays one after another, by induction. -/
theorem strays_run {strays : List Connection} (stray : ∀ connection ∈ strays, Stray parse connection)
    : ((∀ connection ∈ strays, connection.Settles)
        ∧ ∃ answers, List.Forall₂ Answered strays answers
          ∧ ∀ later, waitForCode parse (strays ++ later)
            = (answers ++ (waitForCode parse later).1, (waitForCode parse later).2))
      ∨ ((¬ ∀ connection ∈ strays, connection.Settles)
        ∧ ∀ later code, (waitForCode parse (strays ++ later)).2 ≠ .code code) := by
  induction strays with
  | nil => exact .inl ⟨by simp, [], .nil, fun _ => rfl⟩
  | cons connection rest ih =>
      obtain ⟨here, behind⟩ := List.forall_mem_cons.mp stray
      rcases stray_step here with ⟨settles, answer, answered, goesOn⟩ | ⟨unsettled, decides⟩
      · rcases ih behind with ⟨all, answers, answeredAll, run⟩ | ⟨notAll, decides⟩
        · refine .inl ⟨List.forall_mem_cons.mpr ⟨settles, all⟩, answer :: answers,
            .cons answered answeredAll, fun later => ?_⟩
          rw [List.cons_append, goesOn, run, List.cons_append]
        · refine .inr ⟨fun all => notAll (List.forall_mem_cons.mp all).2, fun later code => ?_⟩
          rw [List.cons_append, goesOn]
          exact decides later code
      · exact .inr ⟨fun all => unsettled (all _ List.mem_cons_self),
          fun later code => decides (rest ++ later) code⟩

/-- The login ends the wait where its line is read in time. -/
theorem real_step (real : Real parse connection code)
    : (connection.InTime
        ∧ ∀ later, waitForCode parse (connection :: later) = ([some signedInPage], .code code))
      ∨ (¬ connection.InTime ∧ (waitForCode parse [connection]).2 ≠ .code code) := by
  obtain ⟨target, url, asks, located, carries⟩ := real
  rcases readRequestTarget_cases connection with
    ⟨place, first, inTime, read⟩ | ⟨late, _, read⟩ | ⟨late, _, read⟩
  · have named := (requests_of_first first target).mp asks
    refine .inl ⟨inTime, fun later => ?_⟩
    rw [waitForCode, read, named]
    simp only [parseCallback_real located carries]
  · exact .inr ⟨late, by simp [waitForCode, read]⟩
  · refine .inr ⟨late, ?_⟩
    rcases read with read | read <;> simp [waitForCode, read]

/-- The strays do not decide the login exactly where each of them settles, and the login itself is read
in time.
-/
theorem goesOn_iff {strays : List Connection} {real : Connection}
    (stray : ∀ connection ∈ strays, Stray parse connection) (login : Real parse real code)
    : GoesOn parse strays real code ↔ (∀ connection ∈ strays, connection.Settles) ∧ real.InTime := by
  rcases strays_run stray with ⟨all, answers, answered, run⟩ | ⟨notAll, decides⟩
  · rcases real_step login with ⟨inTime, ends⟩ | ⟨late, goes⟩
    · refine iff_of_true (fun later => ⟨answers, ?_, answered⟩) ⟨all, inTime⟩
      rw [run, ends]
    · refine iff_of_false (fun goesOn => ?_) (fun both => late both.2)
      obtain ⟨_, ran, _⟩ := goesOn []
      rw [run] at ran
      exact goes (congrArg Prod.snd ran)
  · refine iff_of_false (fun goesOn => ?_) (fun both => notAll both.1)
    obtain ⟨_, ran, _⟩ := goesOn []
    exact decides [real] code (congrArg Prod.snd ran)

end Wait

-----------------------------------------------------------------------------------------
-- Two sign-ins
-----------------------------------------------------------------------------------------

/-- A parameter without an escape. -/
def plainPair (text : Text) : Text × Text :=
  let name := text.takeWhile (· ≠ '=')
  (name, text.drop (name.length + 1))

/-- A URL on the loopback address, without escapes. -/
def plainUrl (text : Text) : Option CallbackUrl :=
  let target := text.drop "http://127.0.0.1".length
  let path := target.takeWhile (· ≠ '?')
  some ⟨path, ((target.drop (path.length + 1)).splitOn '&').map plainPair⟩

def asciiBytes (text : String) : List Byte := text.toList.map (fun char => char.toNat.toUInt8)

/-- The browser that comes back, and keeps its connection. -/
def browser : Connection where
  chunks := [⟨71, asciiBytes "ET /callback?code=abc HTTP/1.1\r\n"⟩]
  ending := .silent

/-- What a browser asks for besides, on a connection that it keeps. -/
def favicon : Connection where
  chunks := [⟨71, asciiBytes "ET /favicon.ico HTTP/1.1\r\n"⟩]
  ending := .silent

theorem Connection.InTime.of_single {connection : Connection} {chunk : Chunk}
    (single : connection.chunks = [chunk]) (ends : lineEnd <:+: bytesOf connection.chunks)
    : connection.InTime :=
  ⟨[], chunk, [], single, Nat.zero_le _, by rwa [List.nil_append, ← single]⟩

theorem browser_real : Real plainUrl browser "abc".toList := by
  have found : find lineEnd (bytesOf browser.chunks) = some 31 := by decide
  have asks : browser.Requests "/callback?code=abc".toList := ⟨31, (find_some found).1, by decide +kernel⟩
  refine ⟨_, ⟨callbackPath, [("code".toList, "abc".toList)]⟩, asks, ⟨rfl, rfl⟩, ?_, by simp⟩
  exact ⟨[], [], rfl, rfl, by simp⟩

theorem empty_stray (ending : Ending) : Stray plainUrl ⟨[], ending⟩ := by
  intro target requests
  obtain ⟨place, first, _⟩ := requests
  have starts := first.1
  simp [bytesOf, lineEnd] at starts

theorem goesOn_favicon : GoesOn plainUrl [favicon, ⟨[], .closed⟩] browser "abc".toList := by
  have found : find lineEnd (bytesOf favicon.chunks) = some 25 := by decide
  have first := (find_some found).1
  have other : Stray plainUrl favicon := by
    intro target requests url located
    have named := (requests_of_first first target).mp requests
    have line : requestTarget ((bytesOf favicon.chunks).take 25) = some "/favicon.ico".toList := by
      decide +kernel
    obtain rfl := Option.some.inj (line.symm.trans named)
    obtain rfl := Option.some.inj located.1
    exact absurd located.2 (by decide)
  refine (@goesOn_iff plainUrl "abc".toList [favicon, ⟨[], .closed⟩] browser ?_ browser_real).mpr ⟨?_, ?_⟩
  · simpa using ⟨other, empty_stray .closed⟩
  · have settles : favicon.Settles :=
      .inr (.inl (first.1.isInfix.trans (List.drop_suffix 25 _).isInfix))
    have closed : Connection.Settles ⟨[], .closed⟩ := .inl rfl
    simpa using ⟨settles, closed⟩
  · have ends : find lineEnd (bytesOf browser.chunks) = some 31 := by decide
    exact .of_single rfl ((find_some ends).1.1.isInfix.trans (List.drop_suffix 31 _).isInfix)

/-- A connection that somebody opens and resets fails the login. -/
theorem reset_fails_login
    : Stray plainUrl ⟨[], .reset⟩ ∧ Real plainUrl browser "abc".toList
      ∧ ¬ GoesOn plainUrl [⟨[], .reset⟩] browser "abc".toList := by
  refine ⟨empty_stray .reset, browser_real, ?_⟩
  intro goesOn
  obtain ⟨answers, ran, _⟩ := goesOn []
  have outcome := congrArg Prod.snd ran
  simp [waitForCode, readRequestTarget, readTargetFrom] at outcome

end WslVpn.Agent

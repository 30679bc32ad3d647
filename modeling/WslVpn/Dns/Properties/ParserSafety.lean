import WslVpn.Fallible.Endings
import WslVpn.Dns.Checked
import WslVpn.Dns.Properties.AnswerDecoding

/-! The parsers of the wire format come to an end on every buffer without a panic. They read inside the
buffer alone, their cursor only goes forward, and what they say is what the plain parsers say.
-/

namespace WslVpn.Dns

open Fallible

/-- The record keeps to the buffer, and each value of the cursor but the last one is in it. -/
structure Trace.Sound (buf : Bytes) (trace : Trace) : Prop where
  bytes : ∀ offset ∈ trace.bytes, offset < buf.length
  slices : ∀ slice ∈ trace.slices, slice.1 ≤ slice.2 ∧ slice.2 ≤ buf.length
  forward : trace.cursors.Pairwise (· > ·)
  inside : ∀ cursor ∈ trace.cursors.tail, cursor < buf.length

def Trace.start : Trace := ⟨[], [], []⟩

/-- The record is sound, and every value of the cursor meets the condition. -/
structure Trace.On (buf : Bytes) (fits : Nat → Prop) (trace : Trace) : Prop where
  sound : trace.Sound buf
  cursors : ∀ cursor ∈ trace.cursors, fits cursor

/-- What is returned if there is something. -/
def outcome {Error Value : Type} (error : Error) (found : Option Value)
    : Except (Stop Error) Value :=
  (found.map .ok).getD (.error (.returned error))

-----------------------------------------------------------------------------------------
-- Steps
-----------------------------------------------------------------------------------------

section Steps

variable {Error Value Next : Type} {platform : Platform} {buf : Buffer platform}
  {fits : Nat → Prop} {first second offset start stop length : Nat} {error : Error}
  {holds after : Trace → Prop} {found : Option Value}

/-- Whatever is added to an offset of the buffer here fits a machine word. -/
theorem Buffer.room (buf : Buffer platform) : buf.bytes.length + 2 ^ 17 < 2 ^ platform.bits := by
  have wide := platform.wide
  have fits := buf.fits
  have half : 2 ^ platform.bits = 2 ^ (platform.bits - 1) + 2 ^ (platform.bits - 1) := by
    rw [← Nat.two_mul, ← Nat.pow_succ']
    congr 1
    omega
  have big : 2 ^ 17 ≤ 2 ^ (platform.bits - 1) := Nat.pow_le_pow_right (by decide) (by omega)
  omega

theorem add_ends (small : first + second < 2 ^ platform.bits)
    : Ends holds (Checked.add platform first second : Checked.Parser Error Nat)
        (.ok (first + second)) holds := by
  rw [Checked.add, if_pos small]
  exact .pure

theorem require_ends
    : Ends holds (Checked.require error found) (outcome error found) holds := by
  cases found with
  | none => exact .throw
  | some value => exact .pure

/-- A parser goes on with what has been found, and without it returns the error. -/
theorem require_bind {next : Value → Checked.Parser Error Next}
    {result : Except (Stop Error) Next}
    (missing : found = none → result = .error (.returned error) ∧ ∀ trace, holds trace → after trace)
    (present : ∀ value, found = some value → Ends holds (next value) result after)
    : Ends holds (Checked.require error found >>= next) result after := by
  cases found with
  | none =>
      obtain ⟨rfl, implies⟩ := missing rfl
      exact .bind_error (require_ends.weaken implies)
  | some value => exact .bind require_ends (present value rfl)

theorem byteAt_ends
    : Ends (Trace.On buf.bytes fits) (Checked.byteAt buf offset : Checked.Parser Error _)
        (.ok buf.bytes[offset]?) (Trace.On buf.bytes fits) := by
  refine .ite ?_ ?_
  · intro inside
    refine .bind (.modify ?_) .pure
    intro trace on
    exact ⟨{ on.sound with bytes := List.forall_mem_cons.mpr ⟨inside, on.sound.bytes⟩ }, on.cursors⟩
  · intro outside
    rw [List.getElem?_eq_none (Nat.not_lt.mp outside)]
    exact .pure

theorem take_ends (ordered : start ≤ stop) (inside : stop ≤ buf.bytes.length)
    : Ends (Trace.On buf.bytes fits) (Checked.take buf start stop : Checked.Parser Error Bytes)
        (.ok ((buf.bytes.drop start).take (stop - start))) (Trace.On buf.bytes fits) := by
  refine .bind (.modify ?_) .pure
  intro trace on
  refine ⟨{ on.sound with slices := ?_ }, on.cursors⟩
  exact List.forall_mem_cons.mpr ⟨⟨ordered, inside⟩, on.sound.slices⟩

/-- The slice of a length is taken where it is there. -/
theorem sliceAt_ends
    : Ends (Trace.On buf.bytes fits)
        (Checked.sliceAt buf start (start + length) : Checked.Parser Error _)
        (.ok (Octets.slice buf.bytes start length)) (Trace.On buf.bytes fits) := by
  refine .ite ?_ ?_
  · intro inside
    have taken := @take_ends Error platform buf fits start (start + length) inside.1 inside.2
    rw [Nat.add_sub_cancel_left] at taken
    rw [Octets.slice, if_pos inside.2, map_eq_pure_bind]
    exact .bind taken .pure
  · intro outside
    rw [Octets.slice, if_neg (by omega)]
    exact .pure

theorem sliceOf_ends (ordered : start ≤ stop) (inside : stop ≤ buf.bytes.length)
    : Ends (Trace.On buf.bytes fits) (Checked.sliceOf buf start stop : Checked.Parser Error Bytes)
        (.ok ((buf.bytes.drop start).take (stop - start))) (Trace.On buf.bytes fits) := by
  rw [Checked.sliceOf, if_pos ⟨ordered, inside⟩]
  exact take_ends ordered inside

theorem u16At_ends (near : offset ≤ buf.bytes.length + 8)
    : Ends (Trace.On buf.bytes fits) (Checked.u16At buf offset : Checked.Parser Error _)
        (.ok (Wire.u16At buf.bytes offset)) (Trace.On buf.bytes fits) := by
  have room := buf.room
  refine .bind byteAt_ends ?_
  cases high : buf.bytes[offset]? with
  | none =>
      rw [Wire.u16At, high]
      exact .pure
  | some byte =>
      refine .bind (add_ends (by omega)) (.bind byteAt_ends ?_)
      rw [Wire.u16At, high]
      cases buf.bytes[offset + 1]? <;> exact .pure

/-- The cursor may go to where it has not been, once it is behind a byte of the buffer. -/
theorem moveTo_ends (ahead : ∀ cursor, fits cursor → cursor < offset ∧ cursor < buf.bytes.length)
    : Ends (Trace.On buf.bytes fits) (Checked.moveTo offset : Checked.Parser Error PUnit) (.ok ⟨⟩)
        (Trace.On buf.bytes (· ≤ offset)) := by
  refine .modify ?_
  intro trace on
  refine ⟨{ on.sound with forward := ?_, inside := ?_ }, ?_⟩
  · exact List.pairwise_cons.mpr
      ⟨fun cursor member => (ahead cursor (on.cursors cursor member)).1, on.sound.forward⟩
  · exact fun cursor member => (ahead cursor (on.cursors cursor member)).2
  · refine List.forall_mem_cons.mpr ⟨Nat.le_refl _, ?_⟩
    exact fun cursor member => Nat.le_of_lt (ahead cursor (on.cursors cursor member)).1

theorem Trace.On.imp {buf : Bytes} {other : Nat → Prop} {trace : Trace} (on : trace.On buf fits)
    (implies : ∀ cursor, fits cursor → other cursor)
    : trace.On buf other :=
  ⟨on.sound, fun cursor member => implies cursor (on.cursors cursor member)⟩

theorem Trace.On.anywhere {buf : Bytes} {trace : Trace} (on : trace.On buf fits)
    : trace.On buf (fun _ => True) :=
  on.imp (fun _ _ => trivial)

end Steps

-----------------------------------------------------------------------------------------
-- Labels
-----------------------------------------------------------------------------------------

section Labels

open Wire

variable {platform : Platform} {buf : Buffer platform} {rounds offset nameLen : Nat}

/-- The labels with the offset behind them, in place of what follows them. -/
def placed (buf : Bytes) (read : List Bytes × Bytes) : List Bytes × Nat :=
  (read.1, buf.length - read.2.length)

/-- Each round reads one byte at least, so that the rounds are enough. By induction on them. -/
theorem readLabels_ends (malformed : QueryError) (enough : buf.bytes.length - offset < rounds)
    (short : nameLen ≤ 255)
    : Ends (Trace.On buf.bytes (· ≤ offset))
        (Checked.readLabels buf malformed rounds offset nameLen)
        (outcome malformed
          ((readLabels rounds nameLen (buf.bytes.drop offset)).map (placed buf.bytes)))
        (Trace.On buf.bytes (fun _ => True)) := by
  have room := buf.room
  induction rounds generalizing offset nameLen with
  | zero => exact absurd enough (Nat.not_lt_zero _)
  | succ rounds ih =>
      rw [Checked.readLabels]
      refine .bind byteAt_ends (require_bind ?_ ?_)
      · intro missing
        rw [List.drop_eq_nil_of_le (List.getElem?_eq_none_iff.mp missing)]
        exact ⟨rfl, fun _ => Trace.On.anywhere⟩
      · intro len found
        obtain ⟨inside, same⟩ := List.getElem?_eq_some_iff.mp found
        have behind : (buf.bytes.drop (offset + 1)).length = buf.bytes.length - (offset + 1) :=
          List.length_drop
        rw [List.drop_eq_getElem_cons inside, same, readLabels]
        refine .bind (add_ends (by omega)) (.bind (moveTo_ends (by omega)) ?_)
        by_cases root : len = 0
        · have place : placed buf.bytes ([], buf.bytes.drop (offset + 1)) = ([], offset + 1) := by
            rw [placed, behind]
            exact Prod.ext rfl (by dsimp only; omega)
          simp only [root, if_true, Option.map_some, place]
          exact .weaken .pure (fun _ => Trace.On.anywhere)
        · by_cases pointer : len &&& 0xc0 ≠ 0
          · rw [if_neg root, if_pos pointer, if_neg root, if_pos pointer]
            exact .weaken .throw (fun _ => Trace.On.anywhere)
          · rw [if_neg root, if_neg pointer, if_neg root, if_neg pointer]
            have byte := len.toNat_lt
            refine .bind (add_ends (by omega)) (.bind sliceAt_ends (require_bind ?_ ?_))
            · intro missing
              have outside : (buf.bytes.drop (offset + 1)).length < len.toNat := by
                by_contra there
                rw [Octets.slice, if_pos (by omega)] at missing
                cases missing
              rw [if_pos outside]
              exact ⟨rfl, fun _ => Trace.On.anywhere⟩
            · intro label taken
              obtain ⟨_, fits, cut⟩ := Octets.slice_some taken
              rw [if_neg (by omega)]
              refine .bind (add_ends (by omega)) (.bind (add_ends (by omega)) ?_)
              have some : 0 < len.toNat := Nat.pos_of_ne_zero (fun zero => root (UInt8.toNat_inj.mp zero))
              by_cases long : 255 < nameLen + (len.toNat + 1)
              · rw [if_pos long]
                dsimp only
                rw [if_pos (by omega)]
                exact .weaken .throw (fun _ => Trace.On.anywhere)
              · have next := @ih (offset + 1 + len.toNat) (nameLen + (len.toNat + 1)) (by omega)
                  (by omega)
                rw [if_neg long]
                dsimp only
                rw [if_neg (by omega), List.drop_drop, ← cut, Nat.add_assoc nameLen]
                refine .bind (add_ends (by omega)) (.bind (moveTo_ends (by omega)) ?_)
                cases later : readLabels rounds (nameLen + (len.toNat + 1))
                    (buf.bytes.drop (offset + 1 + len.toNat)) with
                | none =>
                    rw [later] at next
                    exact .bind_error next
                | some rest =>
                    rw [later] at next
                    exact .bind next .pure

end Labels

-----------------------------------------------------------------------------------------
-- Queries
-----------------------------------------------------------------------------------------

section Queries

open Wire

variable {platform : Platform} {buf : Buffer platform}

theorem u16At_drop (buf : Bytes) (start offset : Nat)
    : u16At (buf.drop start) offset = u16At buf (start + offset) := by
  rw [u16At, u16At, List.getElem?_drop, List.getElem?_drop, Nat.add_assoc]

/-- What follows the labels is found at the offset behind them. -/
theorem placed_after {labels : List Bytes} {after : Bytes}
    (read : readLabels buf.bytes.length 0 (buf.bytes.drop headerLen) = some (labels, after))
    : after = buf.bytes.drop (buf.bytes.length - after.length)
      ∧ headerLen ≤ buf.bytes.length - after.length := by
  obtain ⟨split, _, _⟩ := of_readLabels read (by decide)
  have behind : after <:+ buf.bytes := by
    refine List.IsSuffix.trans ?_ (List.drop_suffix headerLen buf.bytes)
    rw [split]
    exact List.suffix_append _ _
  refine ⟨List.suffix_iff_eq_drop.mp behind, ?_⟩
  have size := congrArg List.length split
  rw [List.length_drop, List.length_append, nameBytes_length] at size
  omega

/-- The parser of queries comes to what the plain one says. -/
theorem parseQuery_ends (buf : Buffer platform)
    : Ends (Trace.On buf.bytes (fun _ => False)) (Checked.parseQuery buf)
        ((parseQuery buf.bytes).mapError .returned) (Trace.On buf.bytes (fun _ => True)) := by
  have room := buf.room
  rw [Checked.parseQuery, parseQuery]
  by_cases short : buf.bytes.length < headerLen
  · rw [if_pos short, if_pos short]
    exact .weaken .throw (fun _ => Trace.On.anywhere)
  · have long : 12 ≤ buf.bytes.length := Nat.not_lt.mp short
    rw [if_neg short, if_neg short, u16At_eq_field (by omega), u16At_eq_field (by omega)]
    refine .bind (u16At_ends (by omega)) ?_
    rw [u16At_eq_field (by omega)]
    refine .bind require_ends (.bind (u16At_ends (by omega)) ?_)
    rw [u16At_eq_field (by omega)]
    refine .bind require_ends ?_
    dsimp only
    by_cases response : field buf.bytes 2 &&& 0x8000 ≠ 0
    · rw [if_pos response, if_pos response]
      exact .weaken .throw (fun _ => Trace.On.anywhere)
    · by_cases opcode : (field buf.bytes 2 >>> 11) &&& 0x0f ≠ 0
      · rw [if_neg response, if_pos opcode, if_neg response, if_pos opcode]
        exact .weaken .throw (fun _ => Trace.On.anywhere)
      · rw [if_neg response, if_neg opcode, if_neg response, if_neg opcode]
        refine .bind (u16At_ends (by omega)) ?_
        by_cases count : u16At buf.bytes 4 ≠ some 1
        · rw [if_pos count, if_pos count]
          exact .weaken .throw (fun _ => Trace.On.anywhere)
        · rw [if_neg count, if_neg count]
          have labels := @readLabels_ends platform buf buf.bytes.length headerLen 0
            (.malformed (field buf.bytes 0) rcodeFormerr) (by rw [headerLen]; omega) (by decide)
          refine .bind (moveTo_ends (fun _ never => never.elim)) ?_
          cases read : readLabels buf.bytes.length 0 (buf.bytes.drop headerLen) with
          | none =>
              rw [read] at labels
              exact .bind_error labels
          | some name =>
              obtain ⟨parts, after⟩ := name
              rw [read] at labels
              obtain ⟨rest, from12⟩ := placed_after read
              have ofRest (offset : Nat) : u16At after offset
                  = u16At buf.bytes (buf.bytes.length - after.length + offset) := by
                conv_lhs => rw [rest, u16At_drop]
              dsimp only
              rw [ofRest, ofRest, Nat.add_zero]
              generalize place : buf.bytes.length - after.length = behind at from12
              change Ends _ _ (.ok (parts, buf.bytes.length - after.length)) _ at labels
              rw [place] at labels
              refine .bind labels (.bind (u16At_ends (by omega)) (require_bind ?_ ?_))
              · intro missing
                rw [missing]
                exact ⟨rfl, fun _ => Trace.On.anywhere⟩
              · intro qtype found
                rw [found]
                refine .bind (add_ends (by omega)) (.bind (u16At_ends (by omega)) (require_bind ?_ ?_))
                · intro missing
                  rw [missing]
                  exact ⟨rfl, fun _ => Trace.On.anywhere⟩
                · intro qclass found'
                  have inside := inside_of_u16At found'
                  have raw : (buf.bytes.drop headerLen).take
                        ((buf.bytes.drop headerLen).length - after.length + 4)
                      = (buf.bytes.drop headerLen).take (behind + 4 - headerLen) := by
                    rw [List.length_drop]
                    congr 1
                    omega
                  rw [found', raw]
                  refine .bind (add_ends (by omega)) (.bind (sliceOf_ends ?_ (by omega)) .pure)
                  omega

end Queries

-----------------------------------------------------------------------------------------
-- Responses
-----------------------------------------------------------------------------------------

/-- A name has been passed: the cursor was before its end, at a byte of the buffer. -/
def Passed (buf : Bytes) (found : Option Nat) (trace : Trace) : Prop :=
  trace.On buf (fun cursor => ∀ behind ∈ found, cursor < behind ∧ cursor < buf.length)

/-- The cursor has come to the end of what was found. -/
def Arrived (buf : Bytes) (found : Option Nat) (trace : Trace) : Prop :=
  trace.On buf (fun cursor => ∀ behind ∈ found, cursor ≤ behind)

/-- Where nothing was found there is no end to come to. -/
theorem Passed.nowhere {buf : Bytes} {fits : Nat → Prop} (trace : Trace) (on : trace.On buf fits)
    : Passed buf none trace :=
  on.imp (fun _ _ _ found => absurd found (Option.not_mem_none _))

theorem Arrived.nowhere {buf : Bytes} {fits : Nat → Prop} (trace : Trace) (on : trace.On buf fits)
    : Arrived buf none trace :=
  on.imp (fun _ _ _ found => absurd found (Option.not_mem_none _))

theorem Arrived.reached {buf : Bytes} {behind : Nat} {trace : Trace}
    (arrived : Arrived buf (some behind) trace)
    : trace.On buf (· ≤ behind) :=
  arrived.imp (fun _ reached => reached behind rfl)

section Responses

open Wire
open AddressSpace

variable {platform : Platform} {buf : Buffer platform} {rounds offset count : Nat}

/-- Each round of the loop reads one byte at least, so that the rounds are enough. By induction on them.
-/
theorem skipName_ends (enough : buf.bytes.length - offset < rounds)
    : Ends (Trace.On buf.bytes (· ≤ offset)) (Checked.skipName buf rounds offset)
        (outcome () (skipName buf.bytes offset)) (Passed buf.bytes (skipName buf.bytes offset)) := by
  have room := buf.room
  induction rounds generalizing offset with
  | zero => exact absurd enough (Nat.not_lt_zero _)
  | succ rounds ih =>
      rw [Checked.skipName]
      refine .bind byteAt_ends (require_bind ?_ ?_)
      · intro missing
        have nothing : skipName buf.bytes offset = none := by rw [skipName, missing]
        rw [nothing]
        exact ⟨rfl, Passed.nowhere⟩
      · intro len found
        have inside := (List.getElem?_eq_some_iff.mp found).1
        have passed {behind : Nat} (ahead : offset < behind) (trace : Trace)
            (on : trace.On buf.bytes (· ≤ offset)) : Passed buf.bytes (some behind) trace := by
          refine on.imp ?_
          intro cursor reached _ here
          cases here
          omega
        by_cases root : len = 0
        · have ends : skipName buf.bytes offset = some (offset + 1) := by
            rw [skipName, found]
            exact if_pos root
          rw [if_pos root, ends]
          exact .weaken (add_ends (by omega)) (passed (by omega))
        · by_cases pointer : len &&& 0xc0 = 0xc0
          · have ends : skipName buf.bytes offset
                = (buf.bytes[offset + 1]?).map (fun _ => offset + 2) := by
              rw [skipName, found]
              simp only [if_neg root, if_pos pointer]
            rw [if_neg root, if_pos pointer, ends]
            refine .bind (add_ends (by omega)) (.bind byteAt_ends (require_bind ?_ ?_))
            · intro missing
              rw [missing]
              exact ⟨rfl, Passed.nowhere⟩
            · intro low second
              have there : (buf.bytes[offset + 1]?).map (fun _ => offset + 2) = some (offset + 2) := by
                rw [second]
                rfl
              rw [there]
              exact .weaken (add_ends (by omega)) (passed (by omega))
          · have goes : skipName buf.bytes offset = skipName buf.bytes (offset + 1 + len.toNat) := by
              rw [skipName, found]
              simp only [if_neg root, if_neg pointer]
            have byte := len.toNat_lt
            rw [if_neg root, if_neg pointer, goes, Nat.add_assoc]
            refine .bind (add_ends (by omega)) (.bind (add_ends (by omega)) ?_)
            exact .bind (moveTo_ends (by omega)) (ih (by omega))

/-- By induction on the questions. -/
theorem skipQuestions_ends
    : Ends (Trace.On buf.bytes (· ≤ offset)) (Checked.skipQuestions buf count offset)
        (outcome () (skipQuestions buf.bytes count offset))
        (Arrived buf.bytes (skipQuestions buf.bytes count offset)) := by
  have room := buf.room
  induction count generalizing offset with
  | zero =>
      refine .weaken .pure ?_
      intro trace on
      refine on.imp ?_
      intro cursor reached behind here
      cases here
      exact reached
  | succ count ih =>
      have name := @skipName_ends platform buf (buf.bytes.length + 1) offset (by omega)
      rw [Checked.skipQuestions, skipQuestions]
      cases passed : skipName buf.bytes offset with
      | none =>
          rw [passed] at name
          exact .bind_error (name.weaken Arrived.nowhere)
      | some behind =>
          obtain ⟨_, inside⟩ := skipName_inside passed
          rw [passed] at name
          refine .bind name (.bind (add_ends (by omega)) (.bind (moveTo_ends ?_) ih))
          intro cursor before
          have here := before behind rfl
          omega

theorem u16At_lt {value : Nat} (found : u16At buf.bytes offset = some value) : value < 2 ^ 16 := by
  rw [u16At_eq_field (inside_of_u16At found), Option.some.injEq] at found
  rw [← found]
  exact field_lt

/-- A record is read, and the cursor has moved behind its name and behind the record. -/
theorem readAnswer_ends
    : Ends (Trace.On buf.bytes (· ≤ offset)) (Checked.readAnswer buf offset)
        (outcome () (readAnswer buf.bytes offset))
        (Arrived buf.bytes ((readAnswer buf.bytes offset).map Prod.snd)) := by
  have room := buf.room
  have name := @skipName_ends platform buf (buf.bytes.length + 1) offset (by omega)
  rw [Checked.readAnswer]
  cases passed : skipName buf.bytes offset with
  | none =>
      have ends : readAnswer buf.bytes offset = none := by simp [readAnswer, passed]
      rw [passed] at name
      rw [ends]
      exact .bind_error (name.weaken Arrived.nowhere)
  | some behind =>
      obtain ⟨_, inside⟩ := skipName_inside passed
      rw [passed] at name
      refine .bind name (.bind (moveTo_ends (fun cursor before => before behind rfl)) ?_)
      refine .bind (u16At_ends (by omega)) (require_bind ?_ ?_)
      · intro missing
        have ends : readAnswer buf.bytes offset = none := by simp [readAnswer, passed, missing]
        rw [ends]
        exact ⟨rfl, Arrived.nowhere⟩
      · intro rtype kind
        refine .bind (add_ends (by omega)) (.bind (u16At_ends (by omega)) (require_bind ?_ ?_))
        · intro missing
          have ends : readAnswer buf.bytes offset = none := by simp [readAnswer, passed, missing]
          rw [ends]
          exact ⟨rfl, Arrived.nowhere⟩
        · intro rdlen size
          have few := u16At_lt size
          refine .bind (add_ends (by omega)) (.bind (add_ends (by omega)) ?_)
          refine .bind (add_ends (by omega)) (.bind sliceAt_ends (require_bind ?_ ?_))
          · intro missing
            have ends : readAnswer buf.bytes offset = none := by
              simp [readAnswer, passed, kind, size, missing]
            rw [ends]
            exact ⟨rfl, Arrived.nowhere⟩
          · intro data taken
            obtain ⟨_, fits, _⟩ := Octets.slice_some taken
            have ends : readAnswer buf.bytes offset
                = some (addressIn rtype data, behind + (10 + rdlen)) := by
              simp [readAnswer, passed, kind, size, taken, Nat.add_assoc]
            rw [ends]
            refine .bind (add_ends (by omega)) (.bind (add_ends (by omega)) ?_)
            refine .bind (moveTo_ends (by omega)) (.weaken .pure ?_)
            intro trace on
            refine on.imp ?_
            intro cursor reached last here
            cases here
            exact reached

/-- By induction on the answers. -/
theorem readAnswers_ends
    : Ends (Trace.On buf.bytes (· ≤ offset)) (Checked.readAnswers buf count offset)
        (outcome () (readAnswers buf.bytes count offset))
        (Trace.On buf.bytes (fun _ => True)) := by
  induction count generalizing offset with
  | zero => exact .weaken .pure (fun _ => Trace.On.anywhere)
  | succ count ih =>
      have first := @readAnswer_ends platform buf offset
      rw [Checked.readAnswers, readAnswers]
      cases read : readAnswer buf.bytes offset with
      | none =>
          rw [read] at first
          exact .bind_error (first.weaken (fun _ => Trace.On.anywhere))
      | some answer =>
          obtain ⟨address, behind⟩ := answer
          rw [read] at first
          have next := @ih behind
          refine .bind (first.weaken (fun _ => Arrived.reached)) ?_
          cases rest : readAnswers buf.bytes count behind with
          | none =>
              rw [rest] at next
              rw [Option.bind_eq_bind, Option.bind_some]
              dsimp only
              rw [rest]
              exact .bind_error next
          | some later =>
              rw [rest] at next
              rw [Option.bind_eq_bind, Option.bind_some]
              dsimp only
              rw [rest]
              exact .bind next .pure

/-- The parser of responses comes to what the plain one says. -/
theorem parseResponse_ends (buf : Buffer platform)
    : Ends (Trace.On buf.bytes (fun _ => False)) (Checked.parseResponse buf)
        (outcome () (parseResponse buf.bytes)) (Trace.On buf.bytes (fun _ => True)) := by
  rw [Checked.parseResponse, parseResponse]
  refine .bind (u16At_ends (by omega)) (require_bind ?_ ?_)
  · intro missing
    rw [missing]
    exact ⟨rfl, fun _ => Trace.On.anywhere⟩
  · intro id found
    rw [found, Option.bind_eq_bind, Option.bind_some]
    refine .bind (u16At_ends (by omega)) (require_bind ?_ ?_)
    · intro missing
      rw [missing]
      exact ⟨rfl, fun _ => Trace.On.anywhere⟩
    · intro flags found
      rw [found, Option.bind_eq_bind, Option.bind_some]
      by_cases query : flags &&& 0x8000 = 0
      · rw [if_pos query, if_pos query]
        exact .weaken .throw (fun _ => Trace.On.anywhere)
      · rw [if_neg query, if_neg query]
        refine .bind (u16At_ends (by omega)) (require_bind ?_ ?_)
        · intro missing
          rw [missing]
          exact ⟨rfl, fun _ => Trace.On.anywhere⟩
        · intro qd found
          rw [found, Option.bind_some]
          refine .bind (u16At_ends (by omega)) (require_bind ?_ ?_)
          · intro missing
            rw [missing]
            exact ⟨rfl, fun _ => Trace.On.anywhere⟩
          · intro an found
            have questions := @skipQuestions_ends platform buf headerLen qd
            rw [found, Option.bind_some]
            refine .bind (moveTo_ends (fun _ never => never.elim)) ?_
            cases skipped : skipQuestions buf.bytes qd headerLen with
            | none =>
                rw [skipped] at questions
                exact .bind_error (questions.weaken (fun _ => Trace.On.anywhere))
            | some offset =>
                have answers := @readAnswers_ends platform buf offset an
                rw [skipped] at questions
                rw [Option.bind_some]
                refine .bind (questions.weaken (fun _ => Arrived.reached)) ?_
                cases read : readAnswers buf.bytes an offset with
                | none =>
                    rw [read] at answers
                    exact .bind_error answers
                | some found =>
                    rw [read] at answers
                    exact .bind answers .pure

end Responses

-----------------------------------------------------------------------------------------
-- Every buffer
-----------------------------------------------------------------------------------------

/-- The parser comes to an end, with a value or with an error of its own. It has read inside the buffer,
each slice from its start to its end, and its cursor has gone forward in fewer moves than there are
bytes and one more.
-/
structure Survives {Error Value : Type} (buf : Bytes) (result : Except (Stop Error) Value)
    (trace : Trace) : Prop where
  ends : (∃ value, result = .ok value) ∨ ∃ error, result = .error (.returned error)
  bytes : ∀ offset ∈ trace.bytes, offset < buf.length
  slices : ∀ slice ∈ trace.slices, slice.1 ≤ slice.2 ∧ slice.2 ≤ buf.length
  forward : trace.cursors.Pairwise (· > ·)
  moves : trace.cursors.length ≤ buf.length + 1

section Every

variable {Error Value : Type} {platform : Platform} (buf : Buffer platform)

theorem Trace.start_on (buf : Bytes) : Trace.start.On buf (fun _ => False) where
  sound := {
    bytes := fun _ read => absurd read List.not_mem_nil
    slices := fun _ taken => absurd taken List.not_mem_nil
    forward := List.Pairwise.nil
    inside := fun _ moved => absurd moved List.not_mem_nil }
  cursors _ moved := absurd moved List.not_mem_nil

/-- Numbers that differ are as many as those below them all, at most. -/
theorem Trace.Sound.moves {buf : Bytes} {trace : Trace} (sound : trace.Sound buf)
    : trace.cursors.length ≤ buf.length + 1 := by
  have distinct : trace.cursors.tail.Nodup :=
    (sound.forward.imp Nat.ne_of_gt).sublist (List.tail_sublist _)
  have below : trace.cursors.tail ⊆ List.range buf.length :=
    fun cursor member => List.mem_range.mpr (sound.inside cursor member)
  have few := (List.subperm_of_subset distinct below).length_le
  rw [List.length_tail, List.length_range] at few
  omega

theorem survives_of_sound {result : Except (Stop Error) Value} {buf : Bytes} {trace : Trace}
    (ends : (∃ value, result = .ok value) ∨ ∃ error, result = .error (.returned error))
    (sound : trace.Sound buf)
    : Survives buf result trace where
  ends := ends
  bytes := sound.bytes
  slices := sound.slices
  forward := sound.forward
  moves := sound.moves

/-- Nothing is reported as too short but what does not hold a header. -/
theorem truncated_iff {buf : Bytes}
    : Wire.parseQuery buf = .error .truncated ↔ buf.length < Wire.headerLen := by
  constructor
  · intro truncated
    by_contra long
    have enough : 12 ≤ buf.length := Nat.not_lt.mp long
    unfold Wire.parseQuery at truncated
    rw [if_neg long, u16At_eq_field (by omega), u16At_eq_field (by omega)] at truncated
    dsimp only at truncated
    repeat' split at truncated
    all_goals cases truncated
  · intro short
    rw [Wire.parseQuery, if_pos short]

theorem malformed_id {buf : Bytes} {id rcode : Nat}
    (malformed : Wire.parseQuery buf = .error (.malformed id rcode))
    : id = field buf 0 := by
  unfold Wire.parseQuery at malformed
  split at malformed
  · cases malformed
  · next long =>
      have enough : 12 ≤ buf.length := Nat.not_lt.mp long
      rw [u16At_eq_field (by omega), u16At_eq_field (by omega)] at malformed
      dsimp only at malformed
      repeat' split at malformed
      all_goals
        cases malformed
        try rfl

end Every

/-- On every buffer both parsers come to an end and keep to the buffer. A query is reported as truncated
exactly if it does not hold a header, and whatever else is wrong is reported with its id.
-/
theorem parsers_survive {platform : Platform} (buf : Buffer platform)
    : Survives buf.bytes (exec (Checked.parseQuery buf) .start).1
        (exec (Checked.parseQuery buf) .start).2
      ∧ Survives buf.bytes (exec (Checked.parseResponse buf) .start).1
        (exec (Checked.parseResponse buf) .start).2
      ∧ ((exec (Checked.parseQuery buf) .start).1 = .error (.returned .truncated)
        ↔ buf.bytes.length < 12)
      ∧ ∀ id rcode,
        (exec (Checked.parseQuery buf) .start).1 = .error (.returned (.malformed id rcode))
          → id = Octets.number (buf.bytes.take 2) := by
  obtain ⟨query, queryOn⟩ := parseQuery_ends buf .start (Trace.start_on _)
  obtain ⟨response, responseOn⟩ := parseResponse_ends buf .start (Trace.start_on _)
  rw [query, response]
  refine ⟨survives_of_sound ?_ queryOn.sound, survives_of_sound ?_ responseOn.sound, ?_, ?_⟩
  · cases Wire.parseQuery buf.bytes with
    | ok question => exact Or.inl ⟨question, rfl⟩
    | error error => exact Or.inr ⟨error, rfl⟩
  · cases Wire.parseResponse buf.bytes with
    | none => exact Or.inr ⟨(), rfl⟩
    | some said => exact Or.inl ⟨said, rfl⟩
  · rw [← Wire.headerLen, ← truncated_iff]
    cases Wire.parseQuery buf.bytes with
    | ok question => simp [Except.mapError]
    | error error => simp [Except.mapError]
  · intro id rcode malformed
    cases read : Wire.parseQuery buf.bytes with
    | ok question =>
        rw [read] at malformed
        cases malformed
    | error error =>
        rw [read] at malformed
        cases malformed
        exact malformed_id read

end WslVpn.Dns

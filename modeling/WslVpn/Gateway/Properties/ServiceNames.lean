import WslVpn.AddressSpace.Numerals
import WslVpn.Dns.Lines
import WslVpn.Gateway.Firewall

/-! What the name of a service can do to the ruleset: it stands in a comment, on the one line that
the service has. The destination stands on that line as it is.
-/

namespace WslVpn

open Dns (Text lines dropReturn)

-----------------------------------------------------------------------------------------
-- Quotes
-----------------------------------------------------------------------------------------

/-- The line without what stands between its first and its last double quote. -/
def blank (line : Text) : Text :=
  if 2 ≤ line.count '"' then
    line.takeWhile (· ≠ '"') ++ ['"', '"'] ++ (line.reverse.takeWhile (· ≠ '"')).reverse
  else line

/-- The character ends neither a comment nor a line, and escapes nothing. -/
def Plain (char : Char) : Prop := char ≠ '"' ∧ char ≠ '\\' ∧ isControl char = false

instance (char : Char) : Decidable (Plain char) := inferInstanceAs (Decidable (_ ∧ _))

/-- A line with one comment of at most 63 characters, and nothing that could end it early. -/
structure WellQuoted (line : Text) : Prop where
  two : line.count '"' = 2
  noEscape : '\\' ∉ line
  visible : ∀ char ∈ line, isControl char = false
  short
    : ∀ front comment back, line = front ++ '"' :: comment ++ '"' :: back → comment.length ≤ 63

/-- The service without its name. -/
def unnamed (service : GatewayService) : GatewayService := { service with name := "" }

/-- The line of a service. -/
def serviceLine (service : GatewayService) : Text :=
  (Rule.acceptService service.destination service.protocol service.ports
    (escapeComment service.name)).line.toList

def servedOnes (services : List GatewayService) : List GatewayService :=
  services.filter (fun service => !service.ports.isEmpty)

/-- The lines of the script, where there is one. -/
def renderedLines (services : List GatewayService) (routes : List String)
    (managedRange : Option String) : List Text :=
  match render services routes managedRange with
  | none => []
  | some text => lines text.toList

/-- Each service with ports adds one line of its own to the script, with the name in a comment. -/
def OneLineEach (services : List GatewayService) (routes : List String) (range : String) : Prop :=
  (∃ before after, renderedLines [] routes (some range) = before ++ after
    ∧ renderedLines services routes (some range)
      = before ++ (servedOnes services).map serviceLine ++ after)
  ∧ ∀ service ∈ services, service.ports ≠ [] → WellQuoted (serviceLine service)

section Blank

variable {front back comment other : Text}

theorem takeWhile_quote
    : (front ++ '"' :: back).takeWhile (· ≠ '"') = front.takeWhile (· ≠ '"') := by
  induction front with
  | nil => simp
  | cons char rest ih =>
      by_cases quote : char = '"'
      · simp [quote]
      · rw [List.cons_append, List.takeWhile_cons_of_pos (by simpa using quote), ih,
          List.takeWhile_cons_of_pos (by simpa using quote)]

/-- Nothing of a comment is left. -/
theorem blank_comment
    : blank (front ++ '"' :: comment ++ '"' :: back)
      = front.takeWhile (· ≠ '"') ++ ['"', '"'] ++ (back.reverse.takeWhile (· ≠ '"')).reverse := by
  have two : 2 ≤ (front ++ '"' :: comment ++ '"' :: back).count '"' := by
    simp only [List.count_append, List.count_cons_self]
    omega
  have reversed : (front ++ '"' :: comment ++ '"' :: back).reverse
      = back.reverse ++ '"' :: (front ++ '"' :: comment).reverse := by
    simp
  have left : (front ++ '"' :: comment ++ '"' :: back).takeWhile (· ≠ '"')
      = front.takeWhile (· ≠ '"') := by
    rw [List.append_assoc, List.cons_append]
    exact takeWhile_quote
  rw [blank, if_pos two, left, reversed, takeWhile_quote]

theorem dropReturn_comment
    : dropReturn (front ++ '"' :: comment ++ '"' :: back)
      = front ++ '"' :: comment ++ '"' :: dropReturn back := by
  cases back with
  | nil =>
      have ends : (front ++ '"' :: comment ++ ['"']).getLast? = some '"' := List.getLast?_concat
      rw [dropReturn, ends]
      rfl
  | cons char rest =>
      simp only [dropReturn, List.getLast?_append_of_ne_nil _ (List.cons_ne_nil _ _),
        List.getLast?_cons_cons, List.dropLast_append_of_ne_nil (List.cons_ne_nil _ _),
        List.dropLast_cons_cons]
      split <;> rfl

/-- Inside any text the two make no difference to the blanked lines. -/
def Interchangeable (left right : Text) : Prop :=
  ∀ front back,
    (lines (front ++ left ++ back)).map blank = (lines (front ++ right ++ back)).map blank

theorem Interchangeable.refl (text : Text) : Interchangeable text text := fun _ _ => rfl

theorem Interchangeable.append {left right more others : Text} (first : Interchangeable left right)
    (second : Interchangeable more others)
    : Interchangeable (left ++ more) (right ++ others) := by
  intro front back
  have step := first front (more ++ back)
  have next := second (front ++ right) back
  simp only [List.append_assoc] at step next ⊢
  exact step.trans next

/-- Comments can be exchanged as long as they break no line. -/
theorem interchangeable_comments (unbroken : '\n' ∉ comment) (unbroken' : '\n' ∉ other)
    : Interchangeable ('"' :: comment ++ ['"']) ('"' :: other ++ ['"']) := by
  intro front back
  obtain ⟨before, after, last, first, close, closes, around⟩ := Dns.lines_around front back
  have one (text : Text) (whole : '\n' ∉ text)
      : lines (front ++ ('"' :: text ++ ['"']) ++ back)
        = before ++ close (last ++ '"' :: text ++ '"' :: first) :: after := by
    rw [around ('"' :: text ++ ['"']) (by simp [whole]) (by simp)]
    simp
  rw [one comment unbroken, one other unbroken']
  simp only [List.map_append, List.map_cons]
  rcases closes with rfl | rfl
  · simp only [id, blank_comment]
  · simp only [dropReturn_comment, blank_comment]

end Blank

-----------------------------------------------------------------------------------------
-- The script
-----------------------------------------------------------------------------------------

/-- The line of a service up to its comment. -/
def lineFront (destination : String) (protocol : ServiceProtocol) (ports : List (Fin 65536))
    : Text :=
  ("    ip daddr " ++ destination ++ " " ++ protocol.asStr ++ " dport " ++ portExpr ports
    ++ " accept comment ").toList

def ruleText (rule : Rule) : Text := rule.line.toList ++ ['\n']

def openingLines : List String :=
  [ "add table inet " ++ firewallTable,
    "delete table inet " ++ firewallTable,
    "table inet " ++ firewallTable ++ " \x7b",
    "  chain forward \x7b",
    "    type filter hook forward priority filter + 10; policy accept;" ]

def closingLines : List String := ["  \x7d", "\x7d"]

/-- The text before the first service. -/
def textBefore (range : String) : Text :=
  openingLines.flatMap (fun line => line.toList ++ ['\n'])
  ++ (ruleText (.returnForeign range) ++ ruleText .acceptFlows)

/-- The text behind the last service. -/
def textBehind (routes : List String) : Text :=
  (routes.map Rule.acceptRoute).flatMap ruleText ++ ruleText .drop
  ++ closingLines.flatMap (fun line => line.toList ++ ['\n'])

def serviceText (services : List GatewayService) : Text :=
  (servedOnes services).flatMap (fun service => serviceLine service ++ ['\n'])

section Script

variable {services left right : List GatewayService} {routes : List String} {range : String}
  {service : GatewayService}

theorem quoted_toList {front words opening comment closing : String}
    (opens : opening.toList = words.toList ++ ['"']) (closes : closing.toList = ['"'])
    : (front ++ opening ++ comment ++ closing).toList
      = (front ++ words).toList ++ ('"' :: comment.toList ++ ['"']) := by
  simp [opens, closes]

theorem serviceLine_eq
    : serviceLine service
      = lineFront service.destination service.protocol service.ports
        ++ ('"' :: (escapeComment service.name).toList ++ ['"']) := by
  have opens : " accept comment \"".toList = " accept comment ".toList ++ ['"'] := by simp
  have closes : "\"".toList = ['"'] := by simp
  have whole : serviceLine service
      = ("    ip daddr " ++ service.destination ++ " " ++ service.protocol.asStr ++ " dport "
          ++ portExpr service.ports ++ " accept comment \"" ++ escapeComment service.name
          ++ "\"").toList :=
    rfl
  exact whole.trans (quoted_toList opens closes)

theorem endLine_toList (line : String) : (line ++ "\n").toList = line.toList ++ ['\n'] := by
  have ends : "\n".toList = ['\n'] := by simp
  rw [String.toList_append, ends]

theorem script_toList {rules : List Rule}
    : (script rules).toList
      = openingLines.flatMap (fun line => line.toList ++ ['\n']) ++ rules.flatMap ruleText
        ++ closingLines.flatMap (fun line => line.toList ++ ['\n']) := by
  have lines : script rules
      = String.join ((openingLines ++ rules.map Rule.line ++ closingLines).map (· ++ "\n")) := rfl
  rw [lines, String.toList_join, List.flatMap_map, List.flatMap_append, List.flatMap_append,
    List.flatMap_map]
  simp only [endLine_toList]
  rfl

theorem forwardChain_text
    : (forwardChain services routes range).flatMap ruleText
      = ruleText (.returnForeign range) ++ ruleText .acceptFlows ++ serviceText services
        ++ ((routes.map Rule.acceptRoute).flatMap ruleText ++ ruleText .drop) := by
  rw [forwardChain, List.flatMap_append, List.flatMap_append, List.flatMap_append, List.flatMap_map]
  simp only [List.flatMap_cons, List.flatMap_nil, List.append_nil, List.append_assoc]
  rfl

theorem renderedLines_some
    : renderedLines services routes (some range)
      = lines (textBefore range ++ serviceText services ++ textBehind routes) := by
  have text : (script (forwardChain services routes range)).toList
      = textBefore range ++ serviceText services ++ textBehind routes := by
    rw [script_toList, forwardChain_text, textBefore, textBehind]
    simp only [List.append_assoc]
  rw [renderedLines, render, Option.map_some]
  exact congrArg lines text

theorem escapeComment_plain {char : Char} (member : char ∈ (escapeComment service.name).toList)
    : Plain char := by
  rw [escapeComment, String.toList_ofList] at member
  obtain ⟨old, kept, rfl⟩ := List.mem_map.mp (List.mem_of_mem_take member)
  have visible : isControl old = false := by simpa using (List.mem_filter.mp kept).2
  split
  · decide
  · next other =>
      simp only [Bool.or_eq_true, decide_eq_true_eq, not_or] at other
      exact ⟨other.1, other.2, visible⟩

theorem escapeComment_length : (escapeComment service.name).toList.length ≤ 63 := by
  rw [escapeComment, String.toList_ofList]
  exact List.length_take_le _ _

/-- Services that differ in their names only have interchangeable texts, by induction on them. -/
theorem interchangeable_services (same : left.map unnamed = right.map unnamed)
    : Interchangeable (serviceText left) (serviceText right) := by
  induction left generalizing right with
  | nil =>
      cases right with
      | nil => exact .refl _
      | cons _ _ => cases same
  | cons first rest ih =>
      cases right with
      | nil => cases same
      | cons other others =>
          obtain ⟨head, tail⟩ := List.cons.inj same
          have later := ih tail
          simp only [unnamed, GatewayService.mk.injEq, true_and] at head
          obtain ⟨destination, protocol, ports⟩ := head
          by_cases empty : first.ports.isEmpty = true
          · simpa [serviceText, servedOnes, empty, ← ports] using later
          · have unbroken (service : GatewayService)
                : '\n' ∉ (escapeComment service.name).toList := by
              intro member
              have plain := escapeComment_plain member
              exact absurd plain.2.2 (by decide)
            have comments := interchangeable_comments (unbroken first) (unbroken other)
            have line : Interchangeable (serviceLine first) (serviceLine other) := by
              rw [serviceLine_eq, serviceLine_eq, destination, protocol, ports]
              exact (Interchangeable.refl _).append comments
            have whole := (line.append (.refl ['\n'])).append later
            simpa [serviceText, servedOnes, empty, ← ports] using whole

-----------------------------------------------------------------------------------------
-- The characters of a line
-----------------------------------------------------------------------------------------

def PlainText (text : Text) : Prop := ∀ char ∈ text, Plain char

instance (text : Text) : Decidable (PlainText text) :=
  decidable_of_iff (text.all (fun char => decide (Plain char)) = true) List.all_iff_forall_prop

theorem PlainText.append {front back : Text} (first : PlainText front) (second : PlainText back)
    : PlainText (front ++ back) :=
  List.forall_mem_append.mpr ⟨first, second⟩

theorem plain_toDigits (number : Nat) : PlainText (Nat.toDigits 10 number) := by
  intro char member
  obtain ⟨digit, below, rfl⟩ := AddressSpace.toDigits_chars (by decide) member
  clear member
  revert digit
  decide

theorem plain_intercalate {between : Text} {parts : List Text} (gap : PlainText between)
    (each : ∀ part ∈ parts, PlainText part)
    : PlainText (between.intercalate parts) := by
  induction parts with
  | nil => exact fun char member => absurd member List.not_mem_nil
  | cons part rest ih =>
      have first := each part List.mem_cons_self
      have later := ih (fun other member => each other (List.mem_cons_of_mem _ member))
      cases rest with
      | nil => simpa using first
      | cons next rest =>
          rw [List.intercalate_cons_of_ne_nil (List.cons_ne_nil _ _)]
          exact (first.append gap).append later

/-- The ports are digits, between blanks, commas and braces. By cases as `portExpr` has them. -/
theorem plain_portExpr (ports : List (Fin 65536)) : PlainText (portExpr ports).toList := by
  have number (port : Fin 65536) : PlainText (toString port.val).toList := by
    rw [Nat.toString_eq_repr, Nat.toList_repr]
    exact plain_toDigits _
  have opens : PlainText "\x7b ".toList := by decide +kernel
  have closes : PlainText " \x7d".toList := by decide +kernel
  have comma : PlainText ", ".toList := by decide +kernel
  unfold portExpr
  split
  · next port single =>
      have member : port ∈ ports.map (fun port => toString port.val) := by
        rw [single]
        exact List.mem_cons_self
      obtain ⟨own, _, rfl⟩ := List.mem_map.mp member
      exact number own
  · rw [String.toList_append, String.toList_append, String.toList_intercalate]
    refine (opens.append (plain_intercalate comma ?_)).append closes
    intro part member
    obtain ⟨text, listed, rfl⟩ := List.mem_map.mp member
    obtain ⟨own, _, rfl⟩ := List.mem_map.mp listed
    exact number own

/-- Of the front of a line only the destination may have quotes, backslashes or control
characters.
-/
theorem plain_lineFront {destination : String} {protocol : ServiceProtocol}
    {ports : List (Fin 65536)}
    : PlainText (lineFront destination protocol ports) ↔ PlainText destination.toList := by
  have words : PlainText "    ip daddr ".toList := by decide +kernel
  have blankSpace : PlainText " ".toList := by decide +kernel
  have dport : PlainText " dport ".toList := by decide +kernel
  have accept : PlainText " accept comment ".toList := by decide +kernel
  have family : PlainText protocol.asStr.toList := by cases protocol <;> decide +kernel
  simp only [lineFront, String.toList_append]
  constructor
  · intro plain char member
    apply plain
    simp only [List.mem_append]
    exact .inl (.inl (.inl (.inl (.inl (.inr member)))))
  · intro plain
    exact (((((words.append plain).append blankSpace).append family).append dport).append
      (plain_portExpr ports)).append accept

/-- Texts up to the first double quote are the same in the same text. -/
theorem cut_unique {front other back behind : Text} (quoteless : '"' ∉ front)
    (apart : '"' ∉ other) (same : front ++ '"' :: back = other ++ '"' :: behind)
    : front = other ∧ back = behind := by
  have whole {text : Text} (none : '"' ∉ text) : text.takeWhile (· ≠ '"') = text := by
    rw [List.takeWhile_eq_self_iff]
    intro char member
    simpa using ne_of_mem_of_not_mem member none
  have cut := congrArg (List.takeWhile (· ≠ '"')) same
  rw [takeWhile_quote, takeWhile_quote, whole quoteless, whole apart] at cut
  subst cut
  exact ⟨rfl, (List.cons.inj (List.append_cancel_left same)).2⟩

/-- A line of a front and a plain, short comment is as it should be if the front is plain. -/
theorem wellQuoted_front {front comment : Text} (plainComment : PlainText comment)
    (short : comment.length ≤ 63)
    : WellQuoted (front ++ ('"' :: comment ++ ['"'])) ↔ PlainText front := by
  have unquoted {text : Text} (plain : PlainText text) : '"' ∉ text :=
    fun member => (plain _ member).1 rfl
  have none := List.count_eq_zero.mpr (unquoted plainComment)
  have count : (front ++ ('"' :: comment ++ ['"'])).count '"' = front.count '"' + 2 := by
    simp [none]
  constructor
  · intro well char member
    have inside : char ∈ front ++ ('"' :: comment ++ ['"']) := List.mem_append_left _ member
    refine ⟨?_, ?_, well.visible char inside⟩
    · intro quote
      have one : 0 < front.count '"' := List.count_pos_iff.mpr (quote ▸ member)
      have two := well.two
      omega
    · intro escape
      exact well.noEscape (escape ▸ inside)
  · intro plain
    have chars : ∀ char ∈ front ++ ('"' :: comment ++ ['"']), char = '"' ∨ Plain char := by
      intro char member
      simp only [List.mem_append, List.mem_cons, List.not_mem_nil, or_false] at member
      rcases member with early | (opens | inside) | closes
      · exact .inr (plain char early)
      · exact .inl opens
      · exact .inr (plainComment char inside)
      · exact .inl closes
    have two : (front ++ ('"' :: comment ++ ['"'])).count '"' = 2 := by
      rw [count, List.count_eq_zero.mpr (unquoted plain)]
    refine ⟨two, ?_, ?_, ?_⟩
    · intro member
      rcases chars _ member with quote | clean
      · cases quote
      · exact clean.2.1 rfl
    · intro char member
      rcases chars char member with rfl | clean
      · decide
      · exact clean.2.2
    · -- There are no two quotes to cut the line at but the two that it has.
      intro other inner back same
      have counts := congrArg (List.count '"') same
      rw [two] at counts
      simp only [List.cons_append, List.append_assoc, List.count_append, List.count_cons_self]
        at counts
      have apart : '"' ∉ other := List.count_eq_zero.mp (by omega)
      have still : '"' ∉ inner := List.count_eq_zero.mp (by omega)
      simp only [List.cons_append, List.append_assoc] at same
      obtain ⟨_, rest⟩ := cut_unique (unquoted plain) apart same
      obtain ⟨rfl, _⟩ := cut_unique (unquoted plainComment) still rest
      exact short

/-- The line is as it should be exactly if the destination is plain. -/
theorem wellQuoted_iff
    : WellQuoted (serviceLine service) ↔ PlainText service.destination.toList := by
  rw [← plain_lineFront, serviceLine_eq]
  exact wellQuoted_front (fun char member => escapeComment_plain member) escapeComment_length

/-- Plain destinations leave every service on one line, by induction on the services. -/
theorem lines_serviceText {back : Text}
    (plain : ∀ service ∈ services, service.ports ≠ [] → PlainText service.destination.toList)
    : lines (serviceText services ++ back)
      = (servedOnes services).map serviceLine ++ lines back := by
  induction services with
  | nil => rfl
  | cons first rest ih =>
      have later := ih (fun other member => plain other (List.mem_cons_of_mem _ member))
      by_cases empty : first.ports.isEmpty = true
      · simpa [serviceText, servedOnes, empty] using later
      · have well := wellQuoted_iff.mpr
          (plain first List.mem_cons_self (by simpa using empty))
        have unbroken : '\n' ∉ serviceLine first := by
          intro member
          have visible := well.visible _ member
          exact absurd visible (by decide)
        have ends : dropReturn (serviceLine first) = serviceLine first := by
          have last : (serviceLine first).getLast? = some '"' := by
            rw [serviceLine_eq, ← List.append_assoc]
            exact List.getLast?_concat
          rw [dropReturn, last]
          rfl
        have text : serviceText (first :: rest) ++ back
            = serviceLine first ++ '\n' :: (serviceText rest ++ back) := by
          simp [serviceText, servedOnes, empty]
        rw [text, Dns.lines_cons unbroken, ends, later]
        simp [servedOnes, empty]

/-- The first lines of a script end before the first service. -/
theorem textBefore_ends : ∃ text, textBefore range = text ++ ['\n'] := by
  refine ⟨openingLines.flatMap (fun line => line.toList ++ ['\n'])
    ++ (ruleText (.returnForeign range) ++ Rule.acceptFlows.line.toList), ?_⟩
  rw [textBefore, List.append_assoc, List.append_assoc]
  rfl

theorem oneLineEach_iff
    : OneLineEach services routes range
      ↔ ∀ service ∈ services, service.ports ≠ [] → PlainText service.destination.toList := by
  constructor
  · intro each service member some
    exact wellQuoted_iff.mp (each.2 service member some)
  · intro plain
    refine ⟨?_, fun service member some => wellQuoted_iff.mpr (plain service member some)⟩
    obtain ⟨text, ends⟩ := @textBefore_ends range
    refine ⟨(text.splitOn '\n').map dropReturn, lines (textBehind routes), ?_, ?_⟩
    · rw [renderedLines_some, ends]
      simp only [serviceText, servedOnes, List.filter_nil, List.flatMap_nil, List.append_nil,
        List.append_assoc, List.singleton_append]
      exact Dns.lines_append_newline
    · rw [renderedLines_some, ends, List.append_assoc, List.append_assoc, List.singleton_append,
        Dns.lines_append_newline, lines_serviceText plain, List.append_assoc]

end Script

-----------------------------------------------------------------------------------------
-- Names
-----------------------------------------------------------------------------------------

/-- The names make no difference to the script but between the quotes, and each service stays on a
line of its own exactly where no destination breaks the line or the quotes.
-/
theorem names_harmless (routes : List String) (managedRange : Option String)
    (left right : List GatewayService) (same : left.map unnamed = right.map unnamed)
    : (renderedLines left routes managedRange).length
        = (renderedLines right routes managedRange).length
      ∧ (renderedLines left routes managedRange).map blank
        = (renderedLines right routes managedRange).map blank
      ∧ ∀ range, managedRange = some range →
          (OneLineEach left routes range
            ↔ ∀ service ∈ left, service.ports ≠ [] → PlainText service.destination.toList) := by
  have blanked : (renderedLines left routes managedRange).map blank
      = (renderedLines right routes managedRange).map blank := by
    cases managedRange with
    | none => rfl
    | some range =>
        rw [renderedLines_some, renderedLines_some]
        exact interchangeable_services same _ _
  refine ⟨?_, blanked, fun range _ => oneLineEach_iff⟩
  simpa using congrArg List.length blanked

def databaseAt (destination name : String) : GatewayService where
  name
  destination
  protocol := .tcp
  ports := [⟨5432, Nat.lt_of_sub_pos (Nat.succ_pos 60103)⟩]

/-- A name that would end the comment and the line. -/
def hostileName : String := "evil\" accept; drop \"\n"

theorem names_harmless_hostile
    : (renderedLines [databaseAt "10.0.0.5/32" "db"] [] (some "10.8.1.0/24")).map blank
        = (renderedLines [databaseAt "10.0.0.5/32" hostileName] [] (some "10.8.1.0/24")).map blank
      ∧ OneLineEach [databaseAt "10.0.0.5/32" "db"] [] "10.8.1.0/24" := by
  obtain ⟨_, blanked, each⟩ := names_harmless [] (some "10.8.1.0/24")
    [databaseAt "10.0.0.5/32" "db"] [databaseAt "10.0.0.5/32" hostileName] rfl
  refine ⟨blanked, (each _ rfl).mpr ?_⟩
  intro service member _
  rw [List.mem_singleton.mp member]
  decide +kernel

/-- A destination is written as it is: with a newline in it, it has a second line. -/
theorem destination_breaks_line
    : ¬ OneLineEach [databaseAt "10.0.0.5/32\n" "db"] [] "10.8.1.0/24" := by
  intro each
  have plain := oneLineEach_iff.mp each _ List.mem_cons_self (by simp [databaseAt])
  exact absurd plain (by decide +kernel)

end WslVpn

import WslVpn.Dns.NormalForm
import WslVpn.Dns.Resolver

/-! What a sync leaves in the directory that it shares with others. -/

namespace WslVpn.Dns

open AddressSpace
open Directory

-----------------------------------------------------------------------------------------
-- The loop over the wanted domains
-----------------------------------------------------------------------------------------

/-- The file of the domain is somebody else's. -/
def Directory.skips (dir : Directory) (domain : Text) : Bool :=
  (dir.read (fileName domain)).any (fun text => !isOurs text.toList)

/-- The file of the domain is missing, is not read, or is ours with another text. -/
def Directory.rewrites (dir : Directory) (body : String) (domain : Text) : Bool :=
  !dir.skips domain && dir.read (fileName domain) ≠ some body

/-- The node that is written for the domain. -/
def Rewritten (dir : Directory) (body : String) (domain : Text) (node : Node) : Prop :=
  (dir.find (fileName domain) = none ∧ node = ⟨fileName domain, .file body.toByteArray true true⟩)
  ∨ ∃ old bytes readable, dir.find (fileName domain) = some old
    ∧ old.content = .file bytes readable true
    ∧ node = ⟨old.name, .file body.toByteArray readable true⟩

/-- What the loop over the domains has done. -/
structure Routed (body : String) (wanted : List Text) (dir : Directory) (report : SyncReport)
    (report' : SyncReport) (after : Directory) : Prop where
  skipped : report'.skipped = report.skipped ++ wanted.filter dir.skips
  written : report'.written = report.written ++ wanted.filter (dir.rewrites body)
  removed : report'.removed = report.removed
  caseSensitive : after.caseSensitive = dir.caseSensitive
  path : after.path = dir.path
  rewritten : ∀ domain ∈ wanted, dir.rewrites body domain = true →
    ∃ node, Rewritten dir body domain node ∧ after.find (fileName domain) = some node
  kept : ∀ name, (∀ domain ∈ wanted, dir.Meet name (fileName domain) → dir.rewrites body domain = false) →
    after.find name = dir.find name
  none : (∀ domain ∈ wanted, dir.rewrites body domain = false) → after = dir

section Route

variable {body : String} {wanted : List Text} {dir after : Directory} {report report' : SyncReport}
  {domain : Text}

/-- A write that succeeds, at the domain's place and elsewhere. -/
theorem write_cases {name : FileName} {bytes : ByteArray} (done : dir.write name bytes = some after)
    : ∃ readable, after = dir.put name (.file bytes readable true)
      ∧ ((dir.find name = none ∧ readable = true)
        ∨ ∃ old former, dir.find name = some old ∧ old.content = .file former readable true) := by
  unfold Directory.write at done
  cases found : dir.find name with
  | none =>
      rw [found] at done
      cases done
      exact ⟨true, rfl, Or.inl ⟨rfl, rfl⟩⟩
  | some old =>
      rw [found] at done
      cases content : old.content with
      | directory =>
          simp only [Option.map_some, content] at done
          cases done
      | file former readable writable =>
          simp only [Option.map_some, content] at done
          cases writable with
          | false => cases done
          | true =>
              cases done
              exact ⟨readable, rfl, Or.inr ⟨old, former, rfl, content⟩⟩

theorem rewritten_of_write (done : dir.write (fileName domain) body.toByteArray = some after)
    : ∃ node, Rewritten dir body domain node
      ∧ ∀ name, after.find name
        = if dir.Meet name (fileName domain) then some node else dir.find name := by
  obtain ⟨readable, rfl, before⟩ := write_cases done
  refine ⟨dir.written (fileName domain) (.file body.toByteArray readable true), ?_,
    fun name => find_put⟩
  rcases before with ⟨missing, rfl⟩ | ⟨old, former, found, content⟩
  · exact Or.inl ⟨missing, by simp [written, missing]⟩
  · exact Or.inr ⟨old, former, readable, found, content, by simp [written, found]⟩

theorem read_congr {other : Directory} {name : FileName} (same : other.find name = dir.find name)
    : other.read name = dir.read name := by
  rw [Directory.read, Directory.read, same]

theorem skips_congr {other : Directory}
    (same : other.find (fileName domain) = dir.find (fileName domain))
    : other.skips domain = dir.skips domain := by
  rw [Directory.skips, Directory.skips, read_congr same]

theorem rewrites_congr {other : Directory}
    (same : other.find (fileName domain) = dir.find (fileName domain))
    : other.rewrites body domain = dir.rewrites body domain := by
  rw [Directory.rewrites, Directory.rewrites, read_congr same, skips_congr same]

/-- A domain whose file is not written comes first. -/
theorem Routed.left {first : Text} {rest : List Text} {report₁ : SyncReport}
    (routed : Routed body rest dir report₁ report' after)
    (skipped : report₁.skipped = report.skipped ++ [first].filter dir.skips)
    (written : report₁.written = report.written) (removed : report₁.removed = report.removed)
    (leaves : dir.rewrites body first = false)
    : Routed body (first :: rest) dir report report' after where
  skipped := by
    rw [routed.skipped, skipped, List.append_assoc, ← List.filter_append]
    rfl
  written := by
    rw [routed.written, written, List.filter_cons_of_neg (by simp [leaves])]
  removed := routed.removed.trans removed
  caseSensitive := routed.caseSensitive
  path := routed.path
  rewritten := by
    intro domain member writes
    rcases List.mem_cons.mp member with rfl | member
    · rw [leaves] at writes
      cases writes
    · exact routed.rewritten domain member writes
  kept := fun name none => routed.kept name (fun domain member =>
    none domain (List.mem_cons_of_mem _ member))
  none := fun none => routed.none (fun domain member => none domain (List.mem_cons_of_mem _ member))

/-- A domain whose file is written comes first, and the others have other files. -/
theorem Routed.wrote {first : Text} {rest : List Text} {middle : Directory}
    (apart : ∀ domain ∈ rest, ¬ dir.Meet (fileName domain) (fileName first))
    (writes : dir.rewrites body first = true)
    (done : dir.write (fileName first) body.toByteArray = some middle)
    (routed : Routed body rest middle { report with written := report.written ++ [first] } report' after)
    : Routed body (first :: rest) dir report report' after := by
  obtain ⟨node, rewritten, found⟩ := rewritten_of_write done
  obtain ⟨readable, put, _⟩ := write_cases done
  have caseSensitive : middle.caseSensitive = dir.caseSensitive := by rw [put, put_caseSensitive]
  have path : middle.path = dir.path := by rw [put, put_path]
  have same (domain : Text) (member : domain ∈ rest)
      : middle.find (fileName domain) = dir.find (fileName domain) := by
    rw [found, if_neg (apart domain member)]
  have skips : dir.skips first = false := by
    rw [Directory.rewrites, Bool.and_eq_true] at writes
    simpa using writes.1
  constructor
  case skipped =>
    rw [routed.skipped, List.filter_cons_of_neg (by simp [skips])]
    exact congrArg _ (List.filter_congr (fun domain member => skips_congr (same domain member)))
  case written =>
    rw [routed.written, List.filter_cons_of_pos writes, List.append_assoc, List.singleton_append]
    refine congrArg (fun tail => report.written ++ first :: tail) ?_
    exact List.filter_congr (fun domain member => rewrites_congr (same domain member))
  case removed => exact routed.removed
  case caseSensitive => exact routed.caseSensitive.trans caseSensitive
  case path => exact routed.path.trans path
  case rewritten =>
    intro domain member writes'
    rcases List.mem_cons.mp member with rfl | member
    · have here : dir.Meet (fileName domain) (fileName domain) := rfl
      refine ⟨node, rewritten, ?_⟩
      rw [routed.kept, found, if_pos here]
      intro other there meet
      rw [Directory.Meet, caseSensitive] at meet
      exact absurd meet.symm (apart other there)
    · rw [← rewrites_congr (same domain member)] at writes'
      obtain ⟨node', made, there⟩ := routed.rewritten domain member writes'
      refine ⟨node', ?_, there⟩
      unfold Rewritten at made ⊢
      rwa [same domain member] at made
  case kept =>
    intro name none
    have elsewhere : ¬ dir.Meet name (fileName first) := by
      intro meet
      have left := none first List.mem_cons_self meet
      rw [writes] at left
      cases left
    rw [routed.kept, found, if_neg elsewhere]
    intro domain member meet
    rw [Directory.Meet, caseSensitive] at meet
    rw [rewrites_congr (same domain member)]
    exact none domain (List.mem_cons_of_mem _ member) meet
  case none =>
    intro none
    have left := none first List.mem_cons_self
    rw [writes] at left
    cases left

/-- By induction on the domains: a file that one of them writes is none of the others'. -/
theorem routeAll_routed
    (apart : wanted.Pairwise (fun first second => ¬ dir.Meet (fileName second) (fileName first)))
    (done : routeAll body wanted dir report = (.ok report', after))
    : Routed body wanted dir report report' after := by
  induction wanted generalizing dir report with
  | nil =>
      cases done
      exact ⟨by simp, by simp, rfl, rfl, rfl, by simp, fun _ _ => rfl, fun _ => rfl⟩
  | cons first rest ih =>
      obtain ⟨here, others⟩ := List.pairwise_cons.mp apart
      rw [routeAll] at done
      split at done
      · next skips =>
          have skipped : dir.skips first = true := skips
          refine (ih others done).left ?_ rfl rfl (by simp [Directory.rewrites, skipped])
          simp [skipped]
      · next taken =>
          have unskipped : dir.skips first = false := Bool.eq_false_of_not_eq_true taken
          split at done
          · next same =>
              refine (ih others done).left ?_ rfl rfl (by simp [Directory.rewrites, same])
              simp [unskipped]
          · next different =>
              split at done
              · cases done
              · next middle wrote =>
                  have writes : dir.rewrites body first = true := by
                    simp [Directory.rewrites, unskipped, different]
                  obtain ⟨readable, put, _⟩ := write_cases wrote
                  refine Routed.wrote here writes wrote (ih ?_ done)
                  refine others.imp ?_
                  intro one other unmet meet
                  rw [put, Directory.Meet, put_caseSensitive] at meet
                  exact unmet meet

end Route

-----------------------------------------------------------------------------------------
-- The wanted domains as file names
-----------------------------------------------------------------------------------------

section Names

variable {domain other : Text} {wanted : List Text}

/-- The domain is ASCII without upper case. -/
def Lowered (domain : Text) : Prop := ∀ char ∈ domain, char.toNat < 0x80 ∧ char.toLower = char

/-- A host name is made of dots and the characters of its labels. -/
theorem lowered_of_host (host : HostName domain) : Lowered domain := by
  intro char member
  rw [← @List.intercalate_splitOn _ domain _ _ '.'] at member
  rcases Separated.of_mem_intercalate member with rfl | ⟨label, there, inside⟩
  · exact ⟨by decide, rfl⟩
  · exact (host label there).2 char inside

theorem fileName_eq (domain : Text) : fileName domain = Utf8.encode domain := by
  rw [fileName, Utf8.bytes_toList, String.toList_ofList]

theorem fileName_injective : Function.Injective fileName := by
  intro first second same
  rw [fileName_eq, fileName_eq] at same
  exact Utf8.encode_injective same

theorem fileName_bytes (lowered : Lowered domain)
    : fileName domain = domain.map (fun char => UInt8.ofNat char.toNat) := by
  rw [fileName_eq, Utf8.encode_ascii (fun char member => (lowered char member).1)]

/-- No file system takes lower case for something else. -/
theorem fold_fileName (lowered : Lowered domain) (caseSensitive : Bool)
    : fold caseSensitive (fileName domain) = fileName domain := by
  have stays : ∀ char ∈ domain, foldByte (UInt8.ofNat char.toNat) = UInt8.ofNat char.toNat := by
    intro char member
    obtain ⟨ascii, lower⟩ := lowered char member
    exact @ascii_forall (fun char => char.toLower = char →
      foldByte (UInt8.ofNat char.toNat)
        = UInt8.ofNat char.toNat) (by decide +kernel) char ascii lower
  unfold fold
  split
  · rfl
  · rw [fileName_bytes lowered, List.map_map]
    exact List.map_congr_left stays

theorem meet_fileName {dir : Directory} (lowered : Lowered domain) (lowered' : Lowered other)
    : dir.Meet (fileName domain) (fileName other) ↔ domain = other := by
  rw [Directory.Meet, fold_fileName lowered, fold_fileName lowered']
  exact fileName_injective.eq_iff

/-- A name that reads as the domain is the domain's. -/
theorem fromUtf8Lossy_eq_iff (lowered : Lowered domain) {name : FileName}
    : fromUtf8Lossy name = domain ↔ name = fileName domain := by
  have chunks := (fromUtf8Lossy_chunks name).ascii_iff
  rw [fileName_bytes lowered]
  constructor
  · intro same
    have bytes := chunks.1.mp (fun char member => (lowered char (same ▸ member)).1)
    rw [← same, chunks.2 bytes, List.map_map]
    refine ((List.map_congr_left ?_).trans (List.map_id _)).symm
    intro byte member
    have valid : byte.toNat.isValidChar := Or.inl (by have := bytes byte member; omega)
    rw [Function.comp_apply, toNat_ofNat valid, UInt8.ofNat_toNat]
    rfl
  · intro same
    have code : ∀ char ∈ domain, (UInt8.ofNat char.toNat).toNat = char.toNat := by
      intro char member
      have ascii := (lowered char member).1
      rw [UInt8.toNat_ofNat', Nat.mod_eq_of_lt (by omega)]
    have bytes : ∀ byte ∈ name, byte.toNat < 0x80 := by
      intro byte member
      rw [same] at member
      obtain ⟨char, there, rfl⟩ := List.mem_map.mp member
      rw [code char there]
      exact (lowered char there).1
    rw [chunks.2 bytes, same, List.map_map]
    refine (List.map_congr_left ?_).trans (List.map_id _)
    intro char member
    rw [Function.comp_apply, code char member, Char.ofNat_toNat]
    rfl

/-- What a loop of calls returns is returned by one of them, by induction on the list. -/
theorem of_mapM_ok {Item Value Error : Type} {act : Item → Except Error Value} {items : List Item}
    {values : List Value} (done : items.mapM act = .ok values)
    : ∀ value ∈ values, ∃ item ∈ items, act item = .ok value := by
  induction items generalizing values with
  | nil =>
      cases done
      simp
  | cons item rest ih =>
      rw [List.mapM_cons] at done
      cases first : act item with
      | error error =>
          rw [first] at done
          cases done
      | ok value =>
          rw [first] at done
          cases others : rest.mapM act with
          | error error =>
              rw [others] at done
              cases done
          | ok later =>
              rw [others] at done
              cases done
              intro result member
              rcases List.mem_cons.mp member with rfl | member
              · exact ⟨item, List.mem_cons_self, first⟩
              · obtain ⟨source, there, made⟩ := ih others result member
                exact ⟨source, List.mem_cons_of_mem _ there, made⟩

/-- What is wanted is in lower case, and each domain once. -/
theorem wantedOf_spec {domains : List Text} (accepted : wantedOf domains = .ok wanted)
    : wanted.Nodup ∧ ∀ domain ∈ wanted, Lowered domain := by
  unfold wantedOf at accepted
  cases looped : domains.mapM normalise with
  | error message =>
      rw [looped] at accepted
      cases accepted
  | ok names =>
      rw [looped] at accepted
      simp only [bind, Except.bind] at accepted
      split at accepted
      · cases accepted
      · next tame =>
          cases accepted
          have sorted := List.perm_insertionSort (· ≤ ·) names.dedup
          refine ⟨sorted.nodup_iff.mpr names.nodup_dedup, ?_⟩
          intro domain member
          obtain ⟨source, _, made⟩ :=
            of_mapM_ok looped domain (List.mem_dedup.mp (sorted.mem_iff.mp member))
          have star : domain.head? ≠ some '*' := by
            have checked := List.find?_eq_none.mp tame domain member
            simpa using checked
          have host := normalise_host made
          have plain : stripStart wildcardStart domain = none := by
            unfold stripStart
            refine if_neg ?_
            intro starts
            obtain ⟨rest, rfl⟩ := starts
            exact star rfl
          rw [entryName, plain] at host
          exact lowered_of_host host

end Names

-----------------------------------------------------------------------------------------
-- The marker line
-----------------------------------------------------------------------------------------

/-- The bytes start with the marker line. -/
def Marked (bytes : ByteArray) : Prop :=
  let text := bytes.data.toList
  let start := Utf8.encode marker
  text = start ∨ start ++ [0x0a] <+: text ∨ start ++ [0x0d, 0x0a] <+: text

instance (bytes : ByteArray) : Decidable (Marked bytes) := inferInstanceAs (Decidable (_ ∨ _ ∨ _))

section Marker

variable {text rest : Text}

theorem marker_plain : '\n' ∉ marker ∧ marker.getLast? ≠ some '\r' ∧ marker ≠ [] := by
  decide

/-- A line is followed by its end. -/
theorem line_prefix {line first : Text} (plain : '\n' ∉ line) (whole : '\n' ∉ first)
    : line ++ ['\n'] <+: first ++ '\n' :: rest ↔ first = line := by
  have cut {front : Text} (apart : '\n' ∉ front) (back : Text)
      : (front ++ '\n' :: back).takeWhile (· ≠ '\n') = front := by
    rw [List.takeWhile_append_of_pos]
    · simp
    · intro char member
      rw [decide_eq_true_eq]
      intro same
      exact apart (same ▸ member)
  constructor
  · intro starts
    obtain ⟨back, same⟩ := starts
    have both := congrArg (List.takeWhile (· ≠ '\n')) same
    rw [List.append_assoc, List.singleton_append, cut plain, cut whole] at both
    exact both.symm
  · intro same
    rw [same]
    exact ⟨rest, by simp⟩

theorem isOurs_iff
    : isOurs text = true
      ↔ text = marker ∨ marker ++ ['\n'] <+: text ∨ marker ++ ['\r', '\n'] <+: text := by
  obtain ⟨plain, open_, filled⟩ := marker_plain
  have ends : '\n' ∉ marker ++ ['\r'] := by simp [plain]
  have split : marker ++ ['\r', '\n'] = (marker ++ ['\r']) ++ ['\n'] := by simp
  rw [isOurs, decide_eq_true_eq]
  by_cases inside : '\n' ∈ text
  · obtain ⟨first, rest, rfl, whole⟩ := List.eq_append_cons_of_mem inside
    have head : (lines (first ++ '\n' :: rest)).head? = some (dropReturn first) := by
      unfold lines
      rw [List.splitOn_append_cons_self_of_not_mem whole]
      simp only [List.dropLast_cons_of_ne_nil (List.splitOn_ne_nil '\n' rest), List.map_cons,
        List.cons_append, List.head?_cons]
    have differs : first ++ '\n' :: rest ≠ marker := by
      intro same
      exact plain (same ▸ inside)
    rw [head, split, line_prefix plain whole, line_prefix ends whole, Option.some.injEq, dropReturn]
    split
    · next returns =>
        obtain ⟨front, rfl⟩ := List.getLast?_eq_some_iff.mp returns
        have other : front ++ ['\r'] ≠ marker := by
          intro same
          exact open_ (same ▸ returns)
        rw [List.dropLast_concat, List.append_left_inj]
        simp only [differs, other, false_or]
    · next plainEnd =>
        have other : first ≠ marker ++ ['\r'] := by
          intro same
          exact plainEnd (by simp [same])
        simp [differs, other]
  · have outside {start : Text} (ended : '\n' ∈ start) : ¬ start <+: text :=
      fun starts => inside (starts.subset ended)
    have none := outside (show '\n' ∈ marker ++ ['\n'] by simp)
    have none' := outside (show '\n' ∈ marker ++ ['\r', '\n'] by simp)
    rw [lines, List.splitOn_eq_singleton inside]
    by_cases nothing : text = []
    · simp [nothing, Ne.symm filled]
    · simp [nothing, none, none']

/-- A file that is read as ours is one that starts with the marker line. -/
theorem marked_iff (text : String) : Marked text.toByteArray ↔ isOurs text.toList = true := by
  have newline : Utf8.encode ['\n'] = [0x0a] := rfl
  have both : Utf8.encode ['\r', '\n'] = [0x0d, 0x0a] := rfl
  rw [isOurs_iff, Marked, ← both, ← newline]
  simp only [Utf8.bytes_toList, ← Utf8.encode_append, Utf8.encode_prefix,
    Utf8.encode_injective.eq_iff]

theorem isOurs_render (address : IpAddr) (port : Fin 65536)
    : isOurs (render address port) = true := by
  refine isOurs_iff.mpr (Or.inr (Or.inl ?_))
  refine ⟨"nameserver ".toList ++ (address.render ++ ("\nport ".toList
    ++ (Nat.toDigits 10 port.val ++ ['\n']))), ?_⟩
  simp [render]

end Marker

-----------------------------------------------------------------------------------------
-- What is read of a node
-----------------------------------------------------------------------------------------

section Read

variable {node : Node} {content : Content} {bytes : ByteArray} {text : String}
  {readable writable : Bool}

theorem fromUTF8?_eq_some : String.fromUTF8? bytes = some text ↔ bytes = text.toByteArray := by
  unfold String.fromUTF8?
  constructor
  · intro read
    split at read
    · cases read
      rfl
    · cases read
  · intro same
    subst same
    rw [dif_pos text.isValidUTF8]
    rfl

theorem text_eq_some
    : content.text = some text ↔ ∃ writable, content = .file text.toByteArray true writable := by
  cases content with
  | directory => simp [Content.text]
  | file bytes readable writable =>
      cases readable with
      | false => simp [Content.text]
      | true => simp [Content.text, fromUTF8?_eq_some]

end Read

-----------------------------------------------------------------------------------------
-- A whole sync
-----------------------------------------------------------------------------------------

/-- The text of the files for this address and port. -/
def bodyOf (address : IpAddr) (port : Fin 65536) : String := String.ofList (render address port)

section Sync

variable {dir middle after : Directory} {domains wanted : List Text} {address : IpAddr}
  {port : Fin 65536}
  {report : SyncReport} {node : Node} {domain : Text}

theorem isOurs_body (address : IpAddr) (port : Fin 65536)
    : isOurs (bodyOf address port).toList = true := by
  rw [bodyOf, String.toList_ofList]
  exact isOurs_render address port

/-- By induction on the nodes that are removed. -/
theorem find_removed (nodes : List Node) (name : FileName)
    : (nodes.foldl (fun dir node => dir.remove node.name) dir).find name
      = if ∃ node ∈ nodes, dir.Meet name node.name then none else dir.find name := by
  induction nodes generalizing dir with
  | nil => simp
  | cons first rest ih =>
      have meets (node : Node) : (dir.remove first.name).Meet name node.name
          ↔ dir.Meet name node.name := Iff.rfl
      rw [List.foldl_cons, ih]
      simp only [meets, find_remove, List.exists_mem_cons_iff]
      by_cases later : ∃ node ∈ rest, dir.Meet name node.name
      · simp [later]
      · simp [later]

theorem removed_caseSensitive (nodes : List Node)
    : (nodes.foldl (fun dir node => dir.remove node.name) dir).caseSensitive
      = dir.caseSensitive := by
  induction nodes generalizing dir with
  | nil => rfl
  | cons first rest ih => exact ih

/-- The nodes that are found once the stale ones are gone. -/
theorem find_unstale {name : FileName}
    : ((middle.nodes.filter (Node.stale wanted)).foldl (fun dir node => dir.remove node.name) middle).find name
        = some node
      ↔ middle.find name = some node ∧ node.stale wanted = false := by
  rw [find_removed]
  split
  · next removed =>
      obtain ⟨gone, member, meet⟩ := removed
      obtain ⟨there, stale⟩ := List.mem_filter.mp member
      constructor
      · intro found
        cases found
      · intro found
        obtain ⟨found, fresh⟩ := found
        rw [find_congr meet, mem_nodes.mp there] at found
        cases found
        rw [stale] at fresh
        cases fresh
  · next left =>
      refine (and_iff_left_of_imp ?_).symm
      intro found
      refine Bool.eq_false_iff.mpr ?_
      intro stale
      exact left ⟨node, List.mem_filter.mpr ⟨(find_eq_some.mp found).1, stale⟩,
        (find_leads found).symm⟩

/-- What a sync that succeeds has done: its loop over the domains, and then the stale files are
gone.
-/
structure Ran (dir : Directory) (wanted : List Text) (body : String) (report : SyncReport)
    (middle after : Directory) : Prop where
  routed : Routed body wanted dir ⟨[], [], []⟩ { report with removed := [] } middle
  removed
    : report.removed
      = ((middle.nodes.filter (Node.stale wanted)).map (fun node => fromUtf8Lossy node.name)).insertionSort (· ≤ ·)
  behind
    : after = (middle.nodes.filter (Node.stale wanted)).foldl (fun dir node => dir.remove node.name) middle

theorem pairwise_apart (accepted : wantedOf domains = .ok wanted) (dir : Directory)
    : wanted.Pairwise (fun first second => ¬ dir.Meet (fileName second) (fileName first)) := by
  obtain ⟨distinct, lowered⟩ := wantedOf_spec accepted
  refine distinct.imp_of_mem ?_
  intro first second member member' apart meet
  exact apart ((meet_fileName (lowered second member') (lowered first member)).mp meet).symm

theorem sync_ran (accepted : wantedOf domains = .ok wanted)
    (done : sync dir domains address port = (.ok report, after))
    : ∃ middle, Ran dir wanted (bodyOf address port) report middle after := by
  unfold sync at done
  simp only [accepted] at done
  split at done
  · cases done
  · next first middle looped =>
      cases done
      refine ⟨middle, ?_, rfl, rfl⟩
      have routed := routeAll_routed (pairwise_apart accepted dir) looped
      have removed := routed.removed
      cases first
      cases removed
      exact routed

/-- By induction on the domains: nothing is written where nothing is to be. -/
theorem routeAll_settled {body : String}
    (still : ∀ domain ∈ wanted, dir.rewrites body domain = false)
    : routeAll body wanted dir report
      = (.ok { report with skipped := report.skipped ++ wanted.filter dir.skips }, dir) := by
  induction wanted generalizing report with
  | nil => simp [routeAll]
  | cons first rest ih =>
      have later :=
        fun report => @ih report (fun domain member => still domain (List.mem_cons_of_mem _ member))
      have here := still first List.mem_cons_self
      rw [routeAll, ← Directory.skips]
      cases skips : dir.skips first with
      | true =>
          rw [if_pos rfl, later]
          simp [skips]
      | false =>
          simp only [Directory.rewrites, skips, Bool.not_false, Bool.true_and,
            decide_eq_false_iff_not,
            ne_eq, not_not] at here
          rw [if_neg Bool.false_ne_true, if_pos here, later]
          simp [skips]

/-- A sync for which nothing is left to do. -/
theorem sync_settled (accepted : wantedOf domains = .ok wanted)
    (still : ∀ domain ∈ wanted, dir.rewrites (bodyOf address port) domain = false)
    (fresh : ∀ node ∈ dir.nodes, node.stale wanted = false)
    : sync dir domains address port = (.ok ⟨[], [], wanted.filter dir.skips⟩, dir) := by
  have none : dir.nodes.filter (Node.stale wanted) = [] :=
    List.filter_eq_nil_iff.mpr (fun node member => by simp [fresh node member])
  unfold sync
  simp only [accepted]
  rw [show String.ofList (render address port) = bodyOf address port from rfl,
    routeAll_settled still]
  simp [none]

end Sync

-----------------------------------------------------------------------------------------
-- What a sync promises
-----------------------------------------------------------------------------------------

/-- What is left of the directory `dir` in `after`. -/
structure Synced (dir after : Directory) (domains wanted : List Text) (address : IpAddr)
    (port : Fin 65536)
    (skipped : List Text) : Prop where
  foreign : ∀ node ∈ dir.nodes, ∀ bytes readable writable,
    node.content = .file bytes readable writable → ¬ Marked bytes → node ∈ after.nodes
  routed : ∀ node ∈ after.nodes, ∀ bytes readable writable,
    node.content = .file bytes readable writable → Marked bytes →
      bytes = (bodyOf address port).toByteArray
      ∧ ∃ domain ∈ wanted, domain ∉ skipped ∧ node.name = fileName domain
  complete : ∀ domain ∈ wanted, domain ∉ skipped →
    ∃ readable writable,
      (⟨fileName domain, .file (bodyOf address port).toByteArray readable writable⟩ : Node)
        ∈ after.nodes
  again : ∃ skipped, sync after domains address port = (.ok ⟨[], [], skipped⟩, after)

/-- No file is one that a sync misreads. -/
structure Clear (dir : Directory) (wanted : List Text) : Prop where
  routed : ∀ node ∈ dir.nodes, ∀ bytes readable writable,
    node.content = .file bytes readable writable →
      ∀ domain ∈ wanted, dir.Leads (fileName domain) node →
        readable = true
        ∧ (Marked bytes → node.name = fileName domain)
        ∧ (¬ Marked bytes → ∃ text, bytes = String.toByteArray text)
  others : ∀ node ∈ dir.nodes, ∀ bytes readable writable,
    node.content = .file bytes readable writable →
      (∀ domain ∈ wanted, ¬ dir.Leads (fileName domain) node) →
        Marked bytes → readable = true ∧ ∃ text, bytes = String.toByteArray text

section Promise

variable {dir middle after : Directory} {domains wanted : List Text} {address : IpAddr}
  {port : Fin 65536}
  {report : SyncReport} {node : Node} {domain : Text} {body : String}

theorem read_eq_some {name : FileName} {text : String}
    : dir.read name = some text
      ↔ ∃ node writable, dir.find name = some node
        ∧ node.content = .file text.toByteArray true writable := by
  rw [Directory.read, Option.bind_eq_some_iff]
  simp only [text_eq_some, exists_and_left]

theorem skips_iff
    : dir.skips domain = true
      ↔ ∃ node text writable, dir.find (fileName domain) = some node
        ∧ node.content = .file (String.toByteArray text) true writable
          ∧ ¬ Marked (String.toByteArray text) := by
  rw [Directory.skips, Option.any_eq_true]
  simp only [read_eq_some, marked_iff, Bool.not_eq_true', Bool.not_eq_true]
  constructor
  · intro skips
    obtain ⟨text, ⟨node, writable, found, content⟩, foreign⟩ := skips
    exact ⟨node, text, writable, found, content, foreign⟩
  · intro skips
    obtain ⟨node, text, writable, found, content, foreign⟩ := skips
    exact ⟨text, ⟨node, writable, found, content⟩, foreign⟩

theorem stale_iff (lowered : ∀ domain ∈ wanted, Lowered domain)
    : node.stale wanted = true
      ↔ (∀ domain ∈ wanted, node.name ≠ fileName domain)
        ∧ ∃ text writable, node.content = .file (String.toByteArray text) true writable
          ∧ Marked (String.toByteArray text) := by
  have name : fromUtf8Lossy node.name ∉ wanted
      ↔ ∀ domain ∈ wanted, node.name ≠ fileName domain := by
    constructor
    · intro unwanted domain member same
      exact unwanted ((fromUtf8Lossy_eq_iff (lowered domain member)).mpr same ▸ member)
    · intro apart member
      exact apart _ member ((fromUtf8Lossy_eq_iff (lowered _ member)).mp rfl)
  have ours
      : (node.content.isFile = true ∧ node.content.text.any (fun text => isOurs text.toList) = true)
        ↔ ∃ text writable, node.content = .file (String.toByteArray text) true writable
          ∧ Marked (String.toByteArray text) := by
    rw [Option.any_eq_true]
    simp only [text_eq_some, marked_iff]
    constructor
    · intro both
      obtain ⟨_, text, ⟨writable, content⟩, marked⟩ := both
      exact ⟨text, writable, content, marked⟩
    · intro both
      obtain ⟨text, writable, content, marked⟩ := both
      exact ⟨by rw [content]; rfl, text, ⟨writable, content⟩, marked⟩
  rw [Node.stale, Bool.and_eq_true, Bool.and_eq_true, Bool.not_eq_true', List.contains_eq_mem,
    decide_eq_false_iff_not, name, and_assoc, ours]

/-- A file of a wanted name stays. -/
theorem fresh_of_wanted (lowered : ∀ domain ∈ wanted, Lowered domain) (member : domain ∈ wanted)
    (content : Content) : (Node.mk (fileName domain) content).stale wanted = false := by
  rw [Bool.eq_false_iff, ne_eq, stale_iff lowered]
  intro stale
  exact stale.1 domain member rfl

/-- A file without the marker stays. -/
theorem fresh_of_foreign (lowered : ∀ domain ∈ wanted, Lowered domain) {bytes : ByteArray}
    {readable writable : Bool} (content : node.content = .file bytes readable writable)
    (foreign : ¬ Marked bytes) : node.stale wanted = false := by
  rw [Bool.eq_false_iff, ne_eq, stale_iff lowered]
  intro stale
  obtain ⟨_, text, _, content', marked⟩ := stale
  rw [content, Content.file.injEq] at content'
  rw [← content'.1] at marked
  exact foreign marked

namespace Ran

variable (ran : Ran dir wanted body report middle after)
include ran

theorem find_iff {name : FileName}
    : after.find name = some node ↔ middle.find name = some node ∧ node.stale wanted = false := by
  rw [ran.behind]
  exact find_unstale

theorem leads_iff {name : FileName} : after.Leads name node ↔ dir.Leads name node := by
  have same : after.caseSensitive = dir.caseSensitive := by
    rw [ran.behind, removed_caseSensitive, ran.routed.caseSensitive]
  rw [Leads, Leads, same]

theorem skipped : report.skipped = wanted.filter dir.skips := by
  have skipped := ran.routed.skipped
  simpa using skipped

theorem mem_skipped : domain ∈ report.skipped ↔ domain ∈ wanted ∧ dir.skips domain = true := by
  rw [ran.skipped, List.mem_filter]

/-- Where no wanted domain leads, a file is removed or left. -/
theorem untouched (others : ∀ domain ∈ wanted, ¬ dir.Leads (fileName domain) node)
    : node ∈ after.nodes ↔ node ∈ dir.nodes ∧ node.stale wanted = false := by
  have kept : middle.find node.name = dir.find node.name := by
    refine ran.routed.kept node.name ?_
    intro domain member meet
    exact absurd meet (others domain member)
  rw [mem_nodes, ran.find_iff, kept, ← mem_nodes]

/-- The file of a wanted domain that is not written. -/
theorem kept (distinct : ∀ other ∈ wanted, dir.Meet (fileName domain) (fileName other) → domain = other)
    (still : dir.rewrites body domain = false)
    : middle.find (fileName domain) = dir.find (fileName domain) := by
  refine ran.routed.kept (fileName domain) ?_
  intro other member meet
  rw [← distinct other member meet]
  exact still

/-- What is found of a wanted domain in a clear directory: somebody else's file, or ours with the
body.
-/
theorem settled (marked : Marked body.toByteArray) (clear : Clear dir wanted)
    (lowered : ∀ domain ∈ wanted, Lowered domain) (member : domain ∈ wanted)
    : (dir.skips domain = true ∧ after.find (fileName domain) = dir.find (fileName domain))
      ∨ (dir.skips domain = false
        ∧ ∃ writable, after.find (fileName domain)
          = some ⟨fileName domain, .file body.toByteArray true writable⟩) := by
  have distinct : ∀ other ∈ wanted, dir.Meet (fileName domain) (fileName other) → domain = other :=
    fun other there => (meet_fileName (lowered domain member) (lowered other there)).mp
  have fresh := fresh_of_wanted lowered member
  cases skips : dir.skips domain with
  | true =>
      have still : dir.rewrites body domain = false := by simp [Directory.rewrites, skips]
      obtain ⟨node, text, writable, found, content, foreign⟩ := skips_iff.mp skips
      refine Or.inl ⟨rfl, ?_⟩
      rw [found]
      exact ran.find_iff.mpr ⟨(ran.kept distinct still).trans found,
        fresh_of_foreign lowered content foreign⟩
  | false =>
      refine Or.inr ⟨rfl, ?_⟩
      cases writes : dir.rewrites body domain with
      | false =>
          have read : dir.read (fileName domain) = some body := by
            simpa [Directory.rewrites, skips] using writes
          obtain ⟨node, writable, found, content⟩ := read_eq_some.mp read
          obtain ⟨there, leads⟩ := find_eq_some.mp found
          have name := (clear.routed node there _ _ _ content domain member leads).2.1 marked
          refine ⟨writable, ran.find_iff.mpr ⟨?_, fresh _⟩⟩
          rw [ran.kept distinct writes, found, ← name, ← content]
      | true =>
          obtain ⟨node, rewritten, found⟩ := ran.routed.rewritten domain member writes
          rcases rewritten with ⟨_, rfl⟩ | ⟨old, bytes, readable, before, content, rfl⟩
          · exact ⟨true, ran.find_iff.mpr ⟨found, fresh _⟩⟩
          · obtain ⟨there, leads⟩ := find_eq_some.mp before
            obtain ⟨read, exact_, valid⟩ := clear.routed old there _ _ _ content domain member leads
            subst read
            -- Text of somebody else's would have been left.
            have ours : Marked bytes := by
              by_contra foreign
              obtain ⟨text, rfl⟩ := valid foreign
              have other := skips_iff.mpr ⟨old, text, true, before, content, foreign⟩
              rw [skips] at other
              cases other
            refine ⟨true, ran.find_iff.mpr ⟨?_, fresh _⟩⟩
            rw [found, exact_ ours]

end Ran

theorem synced_of_clear (accepted : wantedOf domains = .ok wanted)
    (ran : Ran dir wanted (bodyOf address port) report middle after) (clear : Clear dir wanted)
    : Synced dir after domains wanted address port report.skipped := by
  obtain ⟨_, lowered⟩ := wantedOf_spec accepted
  have marked : Marked (bodyOf address port).toByteArray :=
    (marked_iff _).mpr (isOurs_body address port)
  have settled {domain : Text} (member : domain ∈ wanted) := ran.settled marked clear lowered member
  constructor
  case foreign =>
    intro node member bytes readable writable content foreign
    by_cases routed : ∃ domain ∈ wanted, dir.Leads (fileName domain) node
    · obtain ⟨domain, wants, leads⟩ := routed
      obtain ⟨rfl, _, valid⟩ := clear.routed node member _ _ _ content domain wants leads
      obtain ⟨text, rfl⟩ := valid foreign
      have found := find_eq_some.mpr ⟨member, leads⟩
      have skips := skips_iff.mpr ⟨node, text, writable, found, content, foreign⟩
      rcases settled wants with ⟨_, same⟩ | ⟨unskipped, _⟩
      · exact (find_eq_some.mp (same.trans found)).1
      · rw [skips] at unskipped
        cases unskipped
    · have others : ∀ domain ∈ wanted, ¬ dir.Leads (fileName domain) node :=
        fun domain wants leads => routed ⟨domain, wants, leads⟩
      exact (ran.untouched others).mpr ⟨member, fresh_of_foreign lowered content foreign⟩
  case routed =>
    intro node member bytes readable writable content ours
    by_cases routed : ∃ domain ∈ wanted, dir.Leads (fileName domain) node
    · obtain ⟨domain, wants, leads⟩ := routed
      have found : after.find (fileName domain) = some node :=
        find_eq_some.mpr ⟨member, ran.leads_iff.mpr leads⟩
      rcases settled wants with ⟨skips, same⟩ | ⟨unskipped, writable', there⟩
      · obtain ⟨old, text, _, before, content', foreign⟩ := skips_iff.mp skips
        rw [found, before] at same
        cases same
        rw [content] at content'
        cases content'
        exact absurd ours foreign
      · rw [found] at there
        cases there
        cases content
        refine ⟨rfl, domain, wants, ?_, rfl⟩
        rw [ran.mem_skipped, unskipped]
        simp
    · have others : ∀ domain ∈ wanted, ¬ dir.Leads (fileName domain) node :=
        fun domain wants leads => routed ⟨domain, wants, leads⟩
      obtain ⟨member, fresh⟩ := (ran.untouched others).mp member
      obtain ⟨rfl, text, rfl⟩ := clear.others node member _ _ _ content others ours
      rw [Bool.eq_false_iff, ne_eq, stale_iff lowered] at fresh
      refine absurd ⟨?_, text, writable, content, ours⟩ fresh
      intro domain wants same
      exact others domain wants (same ▸ leads_self dir node)
  case complete =>
    intro domain wants unskipped
    rcases settled wants with ⟨skips, _⟩ | ⟨_, writable, there⟩
    · exact absurd (ran.mem_skipped.mpr ⟨wants, skips⟩) unskipped
    · exact ⟨true, writable, (find_eq_some.mp there).1⟩
  case again =>
    refine ⟨_, sync_settled accepted ?_ ?_⟩
    · intro domain wants
      rcases settled wants with ⟨skips, same⟩ | ⟨_, writable, there⟩
      · simp [Directory.rewrites, skips_congr same, skips]
      · have read : after.read (fileName domain) = some (bodyOf address port) :=
          read_eq_some.mpr ⟨_, writable, there, rfl⟩
        simp [Directory.rewrites, read]
    · intro node member
      exact (ran.find_iff.mp (mem_nodes.mp member)).2

/-- A sync that writes nothing found every wanted file read, and its text right or somebody else's.
-/
theorem still_of_again {skipped : List Text} (accepted : wantedOf domains = .ok wanted)
    (again : sync dir domains address port = (.ok ⟨[], [], skipped⟩, after))
    (wants : domain ∈ wanted)
    : dir.rewrites (bodyOf address port) domain = false := by
  obtain ⟨middle, ran⟩ := sync_ran accepted again
  have written : wanted.filter (dir.rewrites (bodyOf address port)) = [] := by
    simpa using ran.routed.written.symm
  exact Bool.eq_false_iff.mpr (List.filter_eq_nil_iff.mp written domain wants)

theorem clear_of_synced (accepted : wantedOf domains = .ok wanted)
    (ran : Ran dir wanted (bodyOf address port) report middle after)
    (synced : Synced dir after domains wanted address port report.skipped) : Clear dir wanted := by
  obtain ⟨_, lowered⟩ := wantedOf_spec accepted
  have marked : Marked (bodyOf address port).toByteArray :=
    (marked_iff _).mpr (isOurs_body address port)
  constructor
  case routed =>
    intro node member bytes readable writable content domain wants leads
    have before : dir.find (fileName domain) = some node := find_eq_some.mpr ⟨member, leads⟩
    cases skips : dir.skips domain with
    | true =>
        obtain ⟨old, text, _, found, content', foreign⟩ := skips_iff.mp skips
        rw [before] at found
        cases found
        rw [content] at content'
        cases content'
        exact ⟨rfl, fun ours => absurd ours foreign, fun _ => ⟨text, rfl⟩⟩
    | false =>
        have unskipped : domain ∉ report.skipped := by
          rw [ran.mem_skipped, skips]
          simp
        obtain ⟨readable', writable', there⟩ := synced.complete domain wants unskipped
        have found := find_eq_some.mpr ⟨there, leads_self after _⟩
        -- It is read by the sync that writes nothing.
        have read : readable' = true := by
          obtain ⟨skipped, again⟩ := synced.again
          have still := still_of_again accepted again wants
          cases readable' with
          | true => rfl
          | false => simp [Directory.rewrites, Directory.skips, Directory.read, found, Content.text] at still
        subst read
        have looped := (ran.find_iff.mp found).1
        cases writes : dir.rewrites (bodyOf address port) domain with
        | false =>
            rw [ran.kept (fun other member => (meet_fileName (lowered domain wants) (lowered other member)).mp)
              writes, before] at looped
            cases looped
            cases content
            exact ⟨rfl, fun _ => rfl, fun foreign => absurd marked foreign⟩
        | true =>
            obtain ⟨new, rewritten, made⟩ := ran.routed.rewritten domain wants writes
            rw [looped] at made
            cases made
            rcases rewritten with ⟨missing, _⟩ | ⟨old, _, readable', former, content', same⟩
            · rw [before] at missing
              cases missing
            · rw [before] at former
              cases former
              rw [content] at content'
              cases content'
              rw [Node.mk.injEq, Content.file.injEq] at same
              obtain ⟨name, _, rfl, rfl⟩ := same
              refine ⟨rfl, fun _ => name.symm, ?_⟩
              intro foreign
              have stays := synced.foreign _ member _ _ _ content foreign
              have still := find_eq_some.mpr ⟨stays, ran.leads_iff.mpr leads⟩
              rw [found] at still
              cases still
              cases content
              exact absurd marked foreign
  case others =>
    intro node member bytes readable writable content others ours
    by_contra unread
    have fresh : node.stale wanted = false := by
      rw [Bool.eq_false_iff, ne_eq, stale_iff lowered]
      intro stale
      obtain ⟨_, text, _, content', _⟩ := stale
      rw [content] at content'
      cases content'
      exact unread ⟨rfl, text, rfl⟩
    have stays := (ran.untouched others).mpr ⟨member, fresh⟩
    obtain ⟨_, domain, wants, _, name⟩ := synced.routed node stays _ _ _ content ours
    exact others domain wants (name ▸ leads_self dir node)

/-- A sync that succeeds keeps its promise exactly where no file is one that it misreads. -/
theorem sync_keeps_iff (accepted : wantedOf domains = .ok wanted)
    (done : sync dir domains address port = (.ok report, after))
    : Synced dir after domains wanted address port report.skipped ↔ Clear dir wanted := by
  obtain ⟨middle, ran⟩ := sync_ran accepted done
  exact ⟨clear_of_synced accepted ran, synced_of_clear accepted ran⟩

end Promise

def exampleDomain : Text := "a.example.com".toList

/-- A directory whose one file is somebody else's and has the name of a domain. -/
def claimedDirectory (bytes : ByteArray) : Directory where
  path := "/etc/resolver"
  caseSensitive := false
  nodes := [⟨fileName exampleDomain, .file bytes true true⟩]
  distinct := List.nodup_singleton _

theorem eq_ok {Value Error : Type} {result : Except Error Value} {value : Value}
    (accepted : result.toOption = some value) : result = .ok value := by
  cases result with
  | error error => cases accepted
  | ok value => exact congrArg _ (Option.some.inj accepted)

/-- The sync of the one domain, as it is computed. -/
theorem sync_example {dir after : Directory} {report : SyncReport}
    (accepted : (sync dir [exampleDomain] (.v4 2130706433) 15353).1.toOption = some report)
    (left : (sync dir [exampleDomain] (.v4 2130706433) 15353).2 = after)
    : sync dir [exampleDomain] (.v4 2130706433) 15353 = (.ok report, after) :=
  Prod.ext (eq_ok accepted) left

theorem wantedOf_example
    : wantedOf [exampleDomain] = .ok [exampleDomain] := eq_ok (by decide +kernel)

/-- The sync leaves a file that it reads as somebody else's. -/
theorem sync_keeps_iff_claimed
    : Synced (claimedDirectory "# dnsmasq".toByteArray) (claimedDirectory "# dnsmasq".toByteArray)
        [exampleDomain] [exampleDomain] (.v4 2130706433) 15353 [exampleDomain]
      ↔ Clear (claimedDirectory "# dnsmasq".toByteArray) [exampleDomain] :=
  @sync_keeps_iff (claimedDirectory "# dnsmasq".toByteArray) (claimedDirectory "# dnsmasq".toByteArray)
    [exampleDomain] [exampleDomain]
    (.v4 2130706433) 15353 ⟨[], [], [exampleDomain]⟩ wantedOf_example
    (sync_example (by decide +kernel) (by decide +kernel))

/-- A byte that is not text is somebody else's too, but it is written over. -/
theorem foreign_bytes_overwritten
    : wantedOf [exampleDomain] = .ok [exampleDomain]
      ∧ ∃ after, sync (claimedDirectory ⟨#[0xff]⟩) [exampleDomain] (.v4 2130706433) 15353
          = (.ok ⟨[exampleDomain], [], []⟩, after)
        ∧ ¬ Synced (claimedDirectory ⟨#[0xff]⟩) after [exampleDomain] [exampleDomain]
          (.v4 2130706433) 15353 [] := by
  refine ⟨wantedOf_example, claimedDirectory (bodyOf (.v4 2130706433) 15353).toByteArray,
    sync_example (by decide +kernel) (by decide +kernel), ?_⟩
  intro synced
  have stays := synced.foreign _ List.mem_cons_self _ _ _ rfl (by decide +kernel)
  have same := congrArg Node.content (List.mem_singleton.mp stays)
  rw [Content.file.injEq] at same
  have bytes := congrArg ByteArray.size same.1
  revert bytes
  decide +kernel

end WslVpn.Dns

import WslVpn.Control.ConfigDocument

/-! The expansion of variables in the strings of a configuration file, against the substitution of every
string in value position. A string under a tag is passed over.
-/

namespace WslVpn.Control

open Dns (Text)
open Templates

variable {Number : Type}

-----------------------------------------------------------------------------------------
-- What should be expanded
-----------------------------------------------------------------------------------------

/-- The text has a `${` that no `}` follows. -/
def Unterminated (text : Text) : Prop := ∃ pieces, Scans openingSign '}' text pieces .unterminated

/-- The text refers to the variable. -/
def Names (text name : Text) : Prop :=
  ∃ pieces ending, Scans openingSign '}' text pieces ending ∧ .reference name ∈ pieces

/-- The text has no substitution. -/
def Fails (env : Environment) (text : Text) : Prop :=
  Unterminated text ∨ ∃ name, Names text name ∧ env name = none

/-- The references of the text, from left to right, each with the value of its variable for it. -/
def Substitutes (env : Environment) (text out : Text) : Prop :=
  ∃ (pieces : List (Piece Char)) (parts : List Text), Scans openingSign '}' text pieces .closed
    ∧ pieces.map (Piece.value env) = parts.map some ∧ out = parts.flatten

/-- The string is a value of the document, or an item of one, at any depth. It may be under a tag. -/
inductive InValues : YamlValue Number → Bool → Text → Prop where
  | string (value : Text) : InValues (.string value) false value
  | item {items item inTag value} (member : item ∈ items) (inside : InValues item inTag value)
    : InValues (.sequence items) inTag value
  | entry {entries key entry inTag value} (member : (key, entry) ∈ entries)
    (inside : InValues entry inTag value) : InValues (.mapping entries) inTag value
  | tagged {tag content inTag value} (inside : InValues content inTag value)
    : InValues (.tagged tag content) true value

mutual

/-- Change the strings in value position, those under a tag in a way of their own. -/
def YamlValue.replace (outside inside : Text → Text) : YamlValue Number → YamlValue Number
  | .string value => .string (outside value)
  | .sequence items => .sequence (replaceItems outside inside items)
  | .mapping entries => .mapping (replaceEntries outside inside entries)
  | .tagged tag value => .tagged tag (value.replace inside inside)
  | value => value

def YamlValue.replaceItems (outside inside : Text → Text)
    : List (YamlValue Number) → List (YamlValue Number)
  | [] => []
  | item :: rest => item.replace outside inside :: replaceItems outside inside rest

def YamlValue.replaceEntries (outside inside : Text → Text)
    : List (YamlValue Number × YamlValue Number) → List (YamlValue Number × YamlValue Number)
  | [] => []
  | (key, value) :: rest =>
      (key, value.replace outside inside) :: replaceEntries outside inside rest

end

/-- The expansion fails on account of a string in value position, under a tag or not, or else replaces
every one of them by its substitution and nothing else.
-/
structure ExpandsAll (env : Environment) (document : YamlValue Number) : Prop where
  fails
    : (∃ error, expandEnvInDocument env document = .error error)
      ↔ ∃ inTag value, InValues document inTag value ∧ Fails env value
  replaces
    : ∀ expanded, expandEnvInDocument env document = .ok expanded →
        ∃ change : Text → Text,
          (∀ inTag value, InValues document inTag value → Substitutes env value (change value))
          ∧ expanded = document.replace change change

-----------------------------------------------------------------------------------------
-- One string
-----------------------------------------------------------------------------------------

section Strings

variable {env : Environment} {text out other : Text}

theorem Substitutes.unique (one : Substitutes env text out) (two : Substitutes env text other)
    : out = other := by
  obtain ⟨pieces, parts, scans, values, rfl⟩ := one
  obtain ⟨pieces', parts', scans', values', rfl⟩ := two
  obtain ⟨rfl, _⟩ := scans.unique scans'
  have same := values.symm.trans values'
  rw [List.map_injective_iff.mpr (Option.some_injective _) same]

theorem Substitutes.not_fails (substitutes : Substitutes env text out) : ¬ Fails env text := by
  obtain ⟨pieces, parts, scans, values, _⟩ := substitutes
  intro fails
  rcases fails with ⟨pieces', broken⟩ | ⟨name, ⟨pieces', ending, scans', member⟩, unset⟩
  · cases (scans.unique broken).2
  · obtain ⟨rfl, _⟩ := scans.unique scans'
    have value : Piece.value env (.reference name) ∈ parts.map some := by
      rw [← values]
      exact List.mem_map_of_mem member
    rw [Piece.value, unset] at value
    obtain ⟨_, _, same⟩ := List.mem_map.mp value
    cases same

theorem Substitutes.plain (never : ∀ place, ¬ FirstAt openingSign text place)
    : Substitutes env text text := ⟨_, [text], .plain never, rfl, by simp⟩

section OneReference

variable {name value back : Text} {place : Nat} (first : FirstAt openingSign text place)
  (split : text.drop (place + openingSign.length) = name ++ '}' :: back) (whole : '}' ∉ name)

include first split whole

theorem Substitutes.reference (set : env name = some value) (rest : Substitutes env back out)
    : Substitutes env text (text.take place ++ value ++ out) := by
  obtain ⟨pieces, parts, scans, values, rfl⟩ := rest
  refine ⟨_, text.take place :: value :: parts, .reference first split whole scans, ?_, by simp⟩
  simp [Piece.value, set, values]

theorem Fails.reference (fails : Fails env back) : Fails env text := by
  rcases fails with ⟨pieces, broken⟩ | ⟨name', ⟨pieces, ending, scans, member⟩, unset⟩
  · exact .inl ⟨_, .reference first split whole broken⟩
  · refine .inr ⟨name', ⟨_, ending, .reference first split whole scans, ?_⟩, unset⟩
    exact List.mem_cons_of_mem _ (List.mem_cons_of_mem _ member)

theorem Fails.of_unset (unset : env name = none) : Fails env text := by
  obtain ⟨pieces, ending, scans⟩ := scans_exists openingSign '}' back
  exact .inr ⟨name, ⟨_, ending, .reference first split whole scans, by simp⟩, unset⟩

end OneReference

theorem expandEnvFrom_none {rest : Text} (missing : find openingSign rest = none)
    : expandEnvFrom env out rest = .ok (out ++ rest) := by
  rw [expandEnvFrom]
  split
  · rfl
  · simp_all

section Found

variable {rest name value : Text} {start : Nat} (found : find openingSign rest = some start)

include found

theorem expandEnvFrom_open (missing : '}' ∉ rest.drop (start + 2))
    : expandEnvFrom env out rest = .error .unterminated := by
  rw [expandEnvFrom]
  split
  · simp_all
  · next found' =>
    obtain rfl := Option.some.inj (found.symm.trans found')
    exact if_pos missing

theorem expandEnvFrom_unset (closes : '}' ∈ rest.drop (start + 2))
    (named : (rest.drop (start + 2)).takeWhile (· ≠ '}') = name) (unset : env name = none)
    : expandEnvFrom env out rest = .error (.unset name) := by
  subst named
  rw [expandEnvFrom]
  split
  · simp_all
  · next found' =>
    obtain rfl := Option.some.inj (found.symm.trans found')
    simp only [unset]
    exact if_neg (not_not_intro closes)

theorem expandEnvFrom_set (closes : '}' ∈ rest.drop (start + 2))
    (named : (rest.drop (start + 2)).takeWhile (· ≠ '}') = name) (set : env name = some value)
    : expandEnvFrom env out rest
      = expandEnvFrom env (out ++ rest.take start ++ value)
          ((rest.drop (start + 2)).drop (name.length + 1)) := by
  subst named
  conv_lhs => rw [expandEnvFrom]
  split
  · simp_all
  · next found' =>
    obtain rfl := Option.some.inj (found.symm.trans found')
    simp only [set]
    exact if_neg (not_not_intro closes)

end Found

/-- What the loop puts out is the substitution of the rest, by induction on the loop. -/
theorem expandEnvFrom_spec (env : Environment) (out rest : Text)
    : (∃ tail, expandEnvFrom env out rest = .ok (out ++ tail) ∧ Substitutes env rest tail)
      ∨ ((∃ error, expandEnvFrom env out rest = .error error) ∧ Fails env rest) := by
  induction out, rest using expandEnvFrom.induct env with
  | case1 out rest missing =>
      exact .inl ⟨rest, expandEnvFrom_none missing, .plain (find_none missing)⟩
  | case2 out rest start found after missing =>
      have first := (find_some found).1
      exact .inr ⟨⟨_, expandEnvFrom_open found missing⟩, .inl ⟨_, .broken first missing⟩⟩
  | case3 out rest start found after closes name unset =>
      have closes := not_not.mp closes
      have first := (find_some found).1
      obtain ⟨split, whole⟩ := split_closing closes
      exact .inr ⟨⟨_, expandEnvFrom_unset found closes rfl unset⟩,
        .of_unset first split whole unset⟩
  | case4 out rest start found out' after closes name value set ih =>
      have closes := not_not.mp closes
      have first := (find_some found).1
      obtain ⟨split, whole⟩ := split_closing closes
      rw [expandEnvFrom_set found closes rfl set]
      rcases ih with ⟨tail, runs, substitutes⟩ | ⟨stops, fails⟩
      · refine .inl ⟨rest.take start ++ value ++ tail, ?_, .reference first split whole set substitutes⟩
        simpa [out', after, name] using runs
      · exact .inr ⟨stops, .reference first split whole fails⟩

theorem expandEnv_spec (env : Environment) (raw : Text)
    : (∃ out, expandEnv env raw = .ok out ∧ Substitutes env raw out)
      ∨ ((∃ error, expandEnv env raw = .error error) ∧ Fails env raw) :=
  expandEnvFrom_spec env [] raw

/-- A text without a reference is left as it is. -/
theorem expandEnv_plain (plain : ¬ openingSign <:+: text) : expandEnv env text = .ok text := by
  refine expandEnvFrom_none (Option.eq_none_iff_forall_not_mem.mpr ?_)
  intro place found
  exact plain ((find_some found).1.1.isInfix.trans (List.drop_suffix place text).isInfix)

end Strings

-----------------------------------------------------------------------------------------
-- The strings of a document
-----------------------------------------------------------------------------------------

section Replacing

@[elab_as_elim]
theorem YamlValue.induction {motive : YamlValue Number → Prop} (null : motive .null)
    (bool : ∀ value, motive (.bool value)) (number : ∀ value, motive (.number value))
    (string : ∀ value, motive (.string value))
    (sequence : ∀ items, (∀ item ∈ items, motive item) → motive (.sequence items))
    (mapping : ∀ entries, (∀ entry ∈ entries, motive entry.2) → motive (.mapping entries))
    (tagged : ∀ tag content, motive content → motive (.tagged tag content))
    (document : YamlValue Number) : motive document := by
  refine @YamlValue.rec Number motive (fun items => ∀ item ∈ items, motive item)
    (fun entries => ∀ entry ∈ entries, motive entry.2) (fun entry => motive entry.2)
    null bool number string sequence mapping tagged ?_ ?_ ?_ ?_ ?_ document
  · simp
  · exact fun _ _ here behind => List.forall_mem_cons.mpr ⟨here, behind⟩
  · simp
  · exact fun _ _ here behind => List.forall_mem_cons.mpr ⟨here, behind⟩
  · exact fun _ _ _ here => here

variable {outside inside outside' inside' : Text → Text}

theorem YamlValue.replaceItems_eq_map (items : List (YamlValue Number))
    : replaceItems outside inside items = items.map (·.replace outside inside) := by
  induction items with
  | nil => rfl
  | cons item rest ih => rw [replaceItems, ih, List.map_cons]

theorem YamlValue.replaceEntries_eq_map (entries : List (YamlValue Number × YamlValue Number))
    : replaceEntries outside inside entries
      = entries.map (fun entry => (entry.1, entry.2.replace outside inside)) := by
  induction entries with
  | nil => rfl
  | cons entry rest ih => rw [replaceEntries, ih, List.map_cons]

theorem YamlValue.replace_id (document : YamlValue Number) : document.replace id id = document := by
  induction document using YamlValue.induction with
  | null | bool | number | string => rfl
  | sequence items ih =>
      rw [replace, replaceItems_eq_map, List.map_congr_left ih, List.map_id']
  | mapping entries ih =>
      have same : ∀ entry ∈ entries, (entry.1, entry.2.replace id id) = entry :=
        fun entry member => Prod.ext rfl (ih entry member)
      rw [replace, replaceEntries_eq_map, List.map_congr_left same, List.map_id']
  | tagged tag content ih => rw [replace, ih]

/-- A replacement says what becomes of every string, by induction on the document. -/
theorem YamlValue.replace_eq_iff (document : YamlValue Number)
    : document.replace outside inside = document.replace outside' inside'
      ↔ ∀ inTag value, InValues document inTag value →
          if inTag then inside value = inside' value else outside value = outside' value := by
  induction document using YamlValue.induction generalizing outside inside outside' inside' with
  | null | bool | number => exact iff_of_true rfl (fun _ _ inside => nomatch inside)
  | string text =>
      constructor
      · intro same inTag value occurs
        cases occurs
        exact YamlValue.string.inj same
      · intro same
        exact congrArg _ (same false text (.string text))
  | sequence items ih =>
      rw [replace, replace, YamlValue.sequence.injEq, replaceItems_eq_map, replaceItems_eq_map,
        List.map_inj_left]
      constructor
      · intro same inTag value occurs
        cases occurs with
        | item member occurs => exact (ih _ member).mp (same _ member) inTag value occurs
      · intro same item member
        exact (ih item member).mpr (fun inTag value occurs => same inTag value (.item member occurs))
  | mapping entries ih =>
      rw [replace, replace, YamlValue.mapping.injEq, replaceEntries_eq_map, replaceEntries_eq_map,
        List.map_inj_left]
      constructor
      · intro same inTag value occurs
        cases occurs with
        | entry member occurs =>
            exact (ih _ member).mp (Prod.ext_iff.mp (same _ member)).2 inTag value occurs
      · intro same entry member
        refine Prod.ext rfl ((ih entry member).mpr ?_)
        exact fun inTag value occurs => same inTag value (.entry member occurs)
  | tagged tag content ih =>
      rw [replace, replace, YamlValue.tagged.injEq, ih]
      constructor
      · intro same inTag value occurs
        cases occurs with
        | tagged occurs => simpa using same.2 _ value occurs
      · intro same
        refine ⟨rfl, fun inTag value occurs => ?_⟩
        simpa using same true value (.tagged occurs)

end Replacing

-----------------------------------------------------------------------------------------
-- The whole document
-----------------------------------------------------------------------------------------

section Documents

variable {env : Environment}

/-- What the expansion makes of a string, where it does not fail. -/
def expansion (env : Environment) (text : Text) : Text := (expandEnv env text).toOption.getD text

theorem Substitutes.expansion {text out : Text} (substitutes : Substitutes env text out)
    : expansion env text = out := by
  rcases expandEnv_spec env text with ⟨out', runs, substitutes'⟩ | ⟨_, fails⟩
  · simp [Control.expansion, runs, substitutes.unique substitutes', Except.toOption]
  · exact absurd fails substitutes.not_fails

/-- The strings outside every tag are expanded, or one of them cannot be. -/
def Settled (env : Environment) (document : YamlValue Number) : Prop :=
  (expandEnvInDocument env document = .ok (document.replace (expansion env) id)
    ∧ ∀ value, InValues document false value → Substitutes env value (expansion env value))
  ∨ ((∃ error, expandEnvInDocument env document = .error error)
    ∧ ∃ value, InValues document false value ∧ Fails env value)

theorem expandItems_spec {items : List (YamlValue Number)} (settled : ∀ item ∈ items, Settled env item)
    : (expandItems env items = .ok (YamlValue.replaceItems (expansion env) id items)
        ∧ ∀ item ∈ items, ∀ value, InValues item false value →
            Substitutes env value (expansion env value))
      ∨ ((∃ error, expandItems env items = .error error)
        ∧ ∃ item ∈ items, ∃ value, InValues item false value ∧ Fails env value) := by
  induction items with
  | nil => exact .inl ⟨rfl, by simp⟩
  | cons item rest ih =>
      obtain ⟨here, behind⟩ := List.forall_mem_cons.mp settled
      rcases here with ⟨expands, all⟩ | ⟨⟨error, stops⟩, fails⟩
      · rcases ih behind with ⟨others, allOthers⟩ | ⟨⟨error, stops⟩, other, member, fails⟩
        · refine .inl ⟨?_, List.forall_mem_cons.mpr ⟨all, allOthers⟩⟩
          simp only [expandItems, expands, others, bind, Except.bind]
          rfl
        · refine .inr ⟨⟨error, ?_⟩, other, List.mem_cons_of_mem _ member, fails⟩
          simp only [expandItems, expands, stops, bind, Except.bind]
      · refine .inr ⟨⟨error, ?_⟩, item, List.mem_cons_self, fails⟩
        simp only [expandItems, stops, bind, Except.bind]

theorem expandEntries_spec {entries : List (YamlValue Number × YamlValue Number)}
    (settled : ∀ entry ∈ entries, Settled env entry.2)
    : (expandEntries env entries = .ok (YamlValue.replaceEntries (expansion env) id entries)
        ∧ ∀ entry ∈ entries, ∀ value, InValues entry.2 false value →
            Substitutes env value (expansion env value))
      ∨ ((∃ error, expandEntries env entries = .error error)
        ∧ ∃ entry ∈ entries, ∃ value, InValues entry.2 false value ∧ Fails env value) := by
  induction entries with
  | nil => exact .inl ⟨rfl, by simp⟩
  | cons entry rest ih =>
      obtain ⟨here, behind⟩ := List.forall_mem_cons.mp settled
      rcases here with ⟨expands, all⟩ | ⟨⟨error, stops⟩, fails⟩
      · rcases ih behind with ⟨others, allOthers⟩ | ⟨⟨error, stops⟩, other, member, fails⟩
        · refine .inl ⟨?_, List.forall_mem_cons.mpr ⟨all, allOthers⟩⟩
          simp only [expandEntries, expands, others, bind, Except.bind]
          rfl
        · refine .inr ⟨⟨error, ?_⟩, other, List.mem_cons_of_mem _ member, fails⟩
          simp only [expandEntries, expands, stops, bind, Except.bind]
      · refine .inr ⟨⟨error, ?_⟩, entry, List.mem_cons_self, fails⟩
        simp only [expandEntries, stops, bind, Except.bind]

/-- By induction on the document. -/
theorem expandEnvInDocument_settled (env : Environment) (document : YamlValue Number)
    : Settled env document := by
  induction document using YamlValue.induction with
  | null => exact .inl ⟨rfl, fun _ inside => nomatch inside⟩
  | bool value => exact .inl ⟨rfl, fun _ inside => nomatch inside⟩
  | number value => exact .inl ⟨rfl, fun _ inside => nomatch inside⟩
  | tagged tag content ih =>
      refine .inl ⟨?_, fun _ inside => nomatch inside⟩
      rw [YamlValue.replace, YamlValue.replace_id]
      simp [expandEnvInDocument]
  | string value =>
      have runs : expandEnvInDocument env (.string value : YamlValue Number)
          = (expandEnv env value).map .string := by
        by_cases refers : openingSign <:+: value
        · simp [expandEnvInDocument, refers]
        · simp [expandEnvInDocument, refers, expandEnv_plain refers, Except.map]
      rcases expandEnv_spec env value with ⟨out, expands, substitutes⟩ | ⟨⟨error, stops⟩, fails⟩
      · refine .inl ⟨?_, ?_⟩
        · rw [runs, expands, YamlValue.replace, substitutes.expansion, Except.map]
        · intro value inside
          cases inside
          rwa [substitutes.expansion]
      · exact .inr ⟨⟨error, by rw [runs, stops, Except.map]⟩, value, .string value, fails⟩
  | sequence items ih =>
      rcases expandItems_spec ih with ⟨expands, all⟩ | ⟨⟨error, stops⟩, item, member, fails⟩
      · refine .inl ⟨?_, ?_⟩
        · rw [expandEnvInDocument, expands, YamlValue.replace, Except.map]
        · intro value inside
          cases inside with
          | item member inside => exact all _ member _ inside
      · obtain ⟨value, inside, fails⟩ := fails
        refine .inr ⟨⟨error, ?_⟩, value, .item member inside, fails⟩
        rw [expandEnvInDocument, stops, Except.map]
  | mapping entries ih =>
      rcases expandEntries_spec ih with ⟨expands, all⟩ | ⟨⟨error, stops⟩, entry, member, fails⟩
      · refine .inl ⟨?_, ?_⟩
        · rw [expandEnvInDocument, expands, YamlValue.replace, Except.map]
        · intro value inside
          cases inside with
          | entry member inside => exact all _ member _ inside
      · obtain ⟨value, inside, fails⟩ := fails
        refine .inr ⟨⟨error, ?_⟩, value, .entry member inside, fails⟩
        rw [expandEnvInDocument, stops, Except.map]

/-- The code keeps to the expansion exactly where a string outside every tag cannot be expanded, or every
string under a tag stands for itself.
-/
theorem expandsAll_iff (env : Environment) (document : YamlValue Number)
    : ExpandsAll env document
      ↔ (∃ value, InValues document false value ∧ Fails env value)
        ∨ ∀ value, InValues document true value → Substitutes env value value := by
  rcases expandEnvInDocument_settled env document with ⟨expands, all⟩ | ⟨stops, fails⟩
  · have sound : ¬ ∃ value, InValues document false value ∧ Fails env value := by
      simp only [not_exists, not_and]
      exact fun value inside => (all value inside).not_fails
    constructor
    · intro holds
      obtain ⟨change, substitutes, same⟩ := holds.replaces _ expands
      have agree := (YamlValue.replace_eq_iff document).mp same
      refine .inr (fun value inside => ?_)
      have kept : value = change value := agree true value inside
      have own := substitutes true value inside
      rwa [← kept] at own
    · intro condition
      have kept := condition.resolve_left sound
      have substitutes : ∀ inTag value, InValues document inTag value →
          Substitutes env value (expansion env value) := by
        intro inTag value inside
        cases inTag with
        | false => exact all value inside
        | true => exact (kept value inside).expansion.symm ▸ kept value inside
      refine ⟨iff_of_false ?_ ?_, ?_⟩
      · simp [expands]
      · simp only [not_exists, not_and]
        exact fun inTag value inside => (substitutes inTag value inside).not_fails
      · intro expanded runs
        obtain rfl := Except.ok.inj (expands.symm.trans runs)
        refine ⟨expansion env, substitutes, (YamlValue.replace_eq_iff document).mpr ?_⟩
        intro inTag value inside
        cases inTag with
        | false => rfl
        | true => exact (kept value inside).expansion.symm
  · obtain ⟨value, inside, failed⟩ := fails
    refine iff_of_true ⟨iff_of_true stops ⟨false, value, inside, failed⟩, ?_⟩ (.inl ⟨value, inside, failed⟩)
    obtain ⟨error, stops⟩ := stops
    simp [stops]

end Documents

/-- A token under a tag is used as it is written, a reference to a variable that is not set. -/
theorem tagged_token_literal
    : ¬ ExpandsAll (fun _ => none)
        (.mapping [(.string "scim_token".toList,
          .tagged "!secret".toList (.string "${SCIM_TOKEN}".toList))] : YamlValue Nat) := by
  have first : FirstAt openingSign "${SCIM_TOKEN}".toList 0 :=
    ⟨⟨"SCIM_TOKEN\x7d".toList, rfl⟩, fun _ before => absurd before (Nat.not_lt_zero _)⟩
  have split : "${SCIM_TOKEN}".toList.drop (0 + openingSign.length)
      = "SCIM_TOKEN".toList ++ '}' :: [] := rfl
  have fails : Fails (fun _ => none) "${SCIM_TOKEN}".toList := .of_unset first split (by decide) rfl
  intro holds
  obtain ⟨_, runs⟩ :=
    holds.fails.mpr ⟨true, _, .entry List.mem_cons_self (.tagged (.string _)), fails⟩
  cases runs

end WslVpn.Control

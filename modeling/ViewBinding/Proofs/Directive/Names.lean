import ViewBinding.Directive
import Mathlib.Tactic.Common

/-!
# Directive names

A name that starts with the prefix is taken apart at the first separator behind it, wherever else the
separator may stand: in the prefix, or again in the modifier.  The base name has none, and this is all
that tells the parts from any others of which the name could be made up.

* `decompose_eq_some_iff` — the parts of a name are those of which it is made up, with no separator in
  the base name.
* `parse_eq_some_iff` — a directive is the parts of its name, with the kind and the key.
* `parse_loses_nothing` — a name and its parts stand for each other.
-/

namespace ViewBinding

namespace Directive

variable {start name base : String} {separator : Char} {modifier : Option String}

/-- A name has parts if it starts with the prefix, and else none (`strip_prefix`). -/
theorem isSome_decompose_iff :
    (decompose start separator name).isSome = true ↔ start.toList <+: name.toList := by
  rw [decompose, Option.isSome_map, Option.isSome_iff_exists]
  constructor
  · rintro ⟨rest, hrest⟩
    exact ⟨rest, (Text.dropStart?_eq_some_iff.1 hrest).symm⟩
  · rintro ⟨rest, hname⟩
    exact ⟨rest, Text.dropStart?_eq_some_iff.2 hname.symm⟩

/-- **The parts of a name** that `decompose` answers are those of which it is made up, with no separator in
the base name. -/
theorem decompose_eq_some_iff :
    decompose start separator name = some (base, modifier) ↔
      separator ∉ base.toList ∧ composeName start separator base modifier = name := by
  constructor
  · intro h
    obtain ⟨rest, -, hparts⟩ := Option.map_eq_some_iff.1 h
    have hbase : base.toList = (Text.splitAtFirst separator rest).1 := by
      rw [← (Prod.mk.inj hparts).1, String.toList_ofList]
    exact ⟨hbase ▸ Text.not_mem_splitAtFirst separator rest, composeName_decompose h⟩
  · rintro ⟨hbase, rfl⟩
    cases modifier with
    | none =>
      simp [decompose, composeName, Text.dropStart?_append, Text.splitAtFirst_of_not_mem hbase]
    | some modifier =>
      simp [decompose, composeName, Text.dropStart?_append, Text.splitAtFirst_append hbase]

/-- There is no modifier if and only if no separator stands behind the prefix. -/
theorem modifier_eq_none_iff (h : decompose start separator name = some (base, modifier)) :
    modifier = none ↔ separator ∉ name.toList.drop start.toList.length := by
  obtain ⟨hbase, rfl⟩ := decompose_eq_some_iff.1 h
  cases modifier with
  | none => simpa [composeName] using hbase
  | some modifier => simp [composeName]

theorem parse_eq_some_iff {value : String} {options : Options} {d : Directive} :
    parse name value options = some d ↔
      decompose options.directivePrefix options.modifierSeparator name =
          some (d.baseName, d.modifier) ∧
        d.name = name ∧ d.kind = DirectiveKind.ofName? d.baseName ∧ d.key = value := by
  rw [parse, Option.map_eq_some_iff]
  constructor
  · rintro ⟨⟨base, modifier⟩, hparts, rfl⟩
    exact ⟨hparts, rfl, rfl, rfl⟩
  · rintro ⟨hparts, hname, hkind, hkey⟩
    refine ⟨(d.baseName, d.modifier), hparts, ?_⟩
    show (⟨name, d.baseName, DirectiveKind.ofName? d.baseName, d.modifier, value⟩ : Directive) = d
    rw [← hname, ← hkind, ← hkey]

/-- **A name and its parts stand for each other** (`Directive.parse`), whatever the prefix and the
separator are.
* An attribute is a directive if and only if its name starts with the prefix.
* The base name of a directive has no separator, prefix, base name and modifier make up the name, there is
  no modifier if and only if no separator stands behind the prefix, and the key is the value.
* A name that is made up of a base name without a separator and any modifier, or none, has these parts.
* Directives of different names differ in the base name or in the modifier. -/
theorem parse_loses_nothing (options : Options) :
    let start := options.directivePrefix
    let separator := options.modifierSeparator
    (∀ name value, (∃ d, parse name value options = some d) ↔ start.toList <+: name.toList) ∧
      (∀ name value d, parse name value options = some d →
        separator ∉ d.baseName.toList ∧
          composeName start separator d.baseName d.modifier = name ∧
          (d.modifier = none ↔ separator ∉ name.toList.drop start.toList.length) ∧
          d.key = value ∧ d.name = name ∧ d.kind = DirectiveKind.ofName? d.baseName) ∧
      (∀ base modifier value, separator ∉ base.toList →
        ∃ d, parse (composeName start separator base modifier) value options = some d ∧
          d.baseName = base ∧ d.modifier = modifier) ∧
      ∀ name₁ name₂ value₁ value₂ d₁ d₂, parse name₁ value₁ options = some d₁ →
        parse name₂ value₂ options = some d₂ → name₁ ≠ name₂ →
          d₁.baseName ≠ d₂.baseName ∨ d₁.modifier ≠ d₂.modifier := by
  intro start separator
  refine ⟨fun name value => ?_, fun name value d hd => ?_, fun base modifier value hbase => ?_, ?_⟩
  · have hstart : (decompose start separator name).isSome = true ↔ start.toList <+: name.toList :=
      isSome_decompose_iff
    rw [← hstart, ← Option.isSome_iff_exists, parse, Option.isSome_map]
  · obtain ⟨hparts, hname, hkind, hkey⟩ := parse_eq_some_iff.1 hd
    obtain ⟨hbase, hcompose⟩ := decompose_eq_some_iff.1 hparts
    exact ⟨hbase, hcompose, modifier_eq_none_iff hparts, hkey, hname, hkind⟩
  · have hparts : decompose start separator (composeName start separator base modifier) =
        some (base, modifier) := decompose_eq_some_iff.2 ⟨hbase, rfl⟩
    exact ⟨⟨_, base, DirectiveKind.ofName? base, modifier, value⟩,
      parse_eq_some_iff.2 ⟨hparts, rfl, rfl, rfl⟩, rfl, rfl⟩
  · intro name₁ name₂ value₁ value₂ d₁ d₂ hd₁ hd₂ hne
    -- both names are made up of their parts
    obtain ⟨-, hname₁⟩ := decompose_eq_some_iff.1 (parse_eq_some_iff.1 hd₁).1
    obtain ⟨-, hname₂⟩ := decompose_eq_some_iff.1 (parse_eq_some_iff.1 hd₂).1
    by_contra hsame
    rw [not_or, not_not, not_not] at hsame
    rw [hsame.1, hsame.2] at hname₁
    exact hne (hname₁.symm.trans hname₂)

/-- The prefix `é:` ends with the separator, and more of them follow. -/
theorem parse_loses_nothing_doubled :
    let options : Options := { directivePrefix := "é:" }
    (∃ d, parse "é:on::click" "save" options = some d ∧ d.baseName = "on" ∧
        d.modifier = some ":click") ∧
      (∃ d, parse "é:" "save" options = some d ∧ d.baseName = "" ∧ d.modifier = none) ∧
      ∃ d, parse "é::" "save" options = some d ∧ d.baseName = "" ∧ d.modifier = some "" := by
  intro options
  have hclick : composeName "é:" ':' "on" (some ":click") = "é:on::click" := by decide +kernel
  have hnone : composeName "é:" ':' "" none = "é:" := by decide +kernel
  have hempty : composeName "é:" ':' "" (some "") = "é::" := by decide +kernel
  obtain ⟨-, -, hcompose, -⟩ := parse_loses_nothing options
  rw [← hclick, ← hnone, ← hempty]
  exact ⟨hcompose "on" (some ":click") "save" (by decide), hcompose "" none "save" (by decide),
    hcompose "" (some "") "save" (by decide)⟩

end Directive

end ViewBinding

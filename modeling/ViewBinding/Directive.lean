import ViewBinding.Options
import ViewBinding.Text.Split

/-!
# Directives

An attribute is a directive when its name starts with the directive prefix. What follows the prefix
is the base name and, after the first separator, the modifier; the attribute's value is the key.
Main statement: `composeName_decompose` says that prefix, base name, separator and modifier make up
the attribute's name again.
-/

namespace ViewBinding

/-! ## Kinds -/

/-- The kinds of directive that can be bound. -/
inductive DirectiveKind where
  /-- The key's value is shown as text, `v-text`. -/
  | text
  /-- The value field is tied to the key, `v-model`. -/
  | model
  /-- A method handles an event, `v-on`. -/
  | on
  /-- Markup replaces the node, `v-html`. -/
  | html
deriving DecidableEq, Repr, Inhabited

namespace DirectiveKind

def all : List DirectiveKind := [text, model, on, html]

/-- The base name of a kind (`as_str`). -/
def name : DirectiveKind → String
  | text => "text"
  | model => "model"
  | on => "on"
  | html => "html"

/-- The kind with the given base name (`from_name`). -/
def ofName? (s : String) : Option DirectiveKind :=
  all.find? fun kind => kind.name = s

end DirectiveKind

/-! ## Decomposition -/

/-- A directive attribute taken apart, for `Compiler.dispatch`. -/
structure Directive where
  /-- The name of the attribute as written, such as `v-on:click`. -/
  name : String
  /-- The name between the prefix and the first separator, `on` in that case. -/
  baseName : String
  /-- The kind that the base name stands for; without one the directive is `W-DIRECTIVE-UNKNOWN`. -/
  kind : Option DirectiveKind
  /-- What follows the first separator, `click` in that case, with further separators in it. -/
  modifier : Option String
  key : String
deriving DecidableEq, Repr, Inhabited

namespace Directive

/-- The base name and the modifier in an attribute's name, if it starts with the prefix. Only the first
separator splits (`Text.splitAtFirst`). -/
def decompose (start : String) (separator : Char) (name : String) :
    Option (String × Option String) :=
  (Text.dropStart? start.toList name.toList).map fun cs =>
    let (before, after) := Text.splitAtFirst separator cs
    (String.ofList before, after.map String.ofList)

/-- The attribute name with the given parts, which `decompose` takes apart. -/
def composeName (start : String) (separator : Char) (base : String) :
    Option String → String
  | none => String.ofList (start.toList ++ base.toList)
  | some modifier =>
    String.ofList (start.toList ++ base.toList ++ separator :: modifier.toList)

/-- The directive that an attribute is, if it is one (`parse_directive`). -/
def parse (name value : String) (options : Options) : Option Directive :=
  (decompose options.directivePrefix options.modifierSeparator name).map fun (base, modifier) =>
    ⟨name, base, DirectiveKind.ofName? base, modifier, value⟩

/-! ## Nothing is lost -/

/-- The parts of a name that `decompose` answers make up the name. -/
theorem composeName_decompose {start name base : String} {separator : Char}
    {modifier : Option String} (h : decompose start separator name = some (base, modifier)) :
    composeName start separator base modifier = name := by
  simp only [decompose, Option.map_eq_some_iff] at h
  obtain ⟨cs, hcs, hparts⟩ := h
  have hname := Text.dropStart?_eq_some hcs
  have hjoin := Text.splitAtFirst_join separator cs
  generalize Text.splitAtFirst separator cs = parts at hjoin hparts
  obtain ⟨before, after⟩ := parts
  simp only [Prod.mk.injEq] at hparts
  obtain ⟨rfl, rfl⟩ := hparts
  rw [← String.ofList_toList (s := name), hname]
  cases after with
  | none => simp_all [composeName]
  | some after => simp_all [composeName]

end Directive

end ViewBinding

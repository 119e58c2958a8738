import ViewBinding.Json.Record

/-!
# Compile options

What a compile pass can be told: how directive attributes and interpolation markers are written,
which element goes around injected markup, and which event carries typed input. Options are read
from JSON text, every field with a default, and then have to be valid: no name in them is empty.
`Options.toValue` writes them.
-/

namespace ViewBinding

open Json (Value Fault Slot Shape)

/-- The element around injected markup (`MarkupWrapper`). -/
structure Wrapper where
  tag : String
  /-- Its `class` attribute, if it has one. -/
  cls : Option String
deriving DecidableEq, Repr, Inhabited

/-- The element around injected markup where the options name none: a `div` of class `child`. -/
def Wrapper.standard : Wrapper := ⟨"div", some "child"⟩

/-- What a compile pass can be told (`CompileOptions`). Whether it can be worked with is for
`Options.flaw?` to say. -/
structure Options where
  /-- What the name of a directive attribute starts with, `directive_prefix`. -/
  directivePrefix : String := "v-"
  /-- What stands between the base name of a directive and its modifier, as in `on:click`. -/
  modifierSeparator : Char := ':'
  /-- What stands before and after the key of an interpolation marker (`Marker.find?`). -/
  delimiters : String × String := ("\x7b\x7b", "\x7d\x7d")
  /-- The element around injected markup; without one, markup that is no single node is injected as text
  (`W-MARKUP-FALLBACK`). -/
  markupWrapper : Option Wrapper := some Wrapper.standard
  /-- The event after which a two-way binding takes the typed value (`Strategy.valueSync`). -/
  inputEvent : String := "input"
deriving DecidableEq, Repr, Inhabited

/-! ## Validity -/

/-- Which name in the options is empty, in the order in which `validate` looks. -/
inductive Options.Flaw where
  | directivePrefix
  | delimiters
  | inputEvent
  | wrapperTag
deriving DecidableEq, Repr

/-- The flaw in words, as `CompileError.message` ends. -/
def Options.Flaw.message : Options.Flaw → String
  | directivePrefix => "directive prefix must not be empty"
  | delimiters => "interpolation delimiters must not be empty"
  | inputEvent => "input event name must not be empty"
  | wrapperTag => "markup wrapper tag must not be empty"

/-- The first flaw of the options (`validate`). -/
def Options.flaw? (o : Options) : Option Options.Flaw :=
  if o.directivePrefix = "" then some .directivePrefix
  else if o.delimiters.1 = "" ∨ o.delimiters.2 = "" then some .delimiters
  else if o.inputEvent = "" then some .inputEvent
  else if o.markupWrapper.any (fun w => w.tag = "") then some .wrapperTag
  else none

/-! ## JSON form -/

def optionalText : Option String → Value
  | some s => .string s
  | none => .null

/-- The JSON form of a wrapper, which `Wrapper.shape` reads. -/
def Wrapper.toValue (w : Wrapper) : Value :=
  .ofMembers [("tag", .string w.tag), ("class", optionalText w.cls)]

/-- The JSON form of options, which `Options.read` reads. -/
def Options.toValue (o : Options) : Value :=
  .ofMembers
    [("directivePrefix", .string o.directivePrefix),
     ("modifierSeparator", .string o.modifierSeparator.toString),
     ("delimiters", .array [.string o.delimiters.1, .string o.delimiters.2]),
     ("markupWrapper", (o.markupWrapper.map Wrapper.toValue).getD .null),
     ("inputEvent", .string o.inputEvent)]

/-- A wrapper some fields of which have been read. -/
structure Wrapper.Draft where
  tag : Option String := none
  /-- The class, once read; `some none` if it was `null`. -/
  cls : Option (Option String) := none

/-- How a wrapper is read: the `tag` has to be there, the `class` may be missing. -/
def Wrapper.shape : Shape Wrapper.Draft Wrapper where
  name := "struct MarkupWrapper"
  slots :=
    [.of "tag" (·.tag) (fun d s => { d with tag := some s }) Json.text,
     .of "class" (·.cls) (fun d s => { d with cls := some s }) (Json.optional Json.text)]
  empty := {}
  ofObject d := do .ok ⟨← Json.required "tag" d.tag, d.cls.join⟩
  ofArray count d :=
    match d.tag with
    | some tag => .ok ⟨tag, d.cls.join⟩
    | none => .error (Json.invalidLength count "struct MarkupWrapper with 2 elements")

/-- Options some fields of which have been read. -/
structure Options.Draft where
  directivePrefix : Option String := none
  modifierSeparator : Option Char := none
  delimiters : Option (String × String) := none
  markupWrapper : Option (Option Wrapper) := none
  inputEvent : Option String := none

/-- The options of a draft, with the default of `Options` for each field that is missing. -/
def Options.Draft.options (d : Options.Draft) : Options :=
  let o : Options := {}
  { directivePrefix := d.directivePrefix.getD o.directivePrefix
    modifierSeparator := d.modifierSeparator.getD o.modifierSeparator
    delimiters := d.delimiters.getD o.delimiters
    markupWrapper := d.markupWrapper.getD o.markupWrapper
    inputEvent := d.inputEvent.getD o.inputEvent }

/-- How options are read: every field may be missing, and gets its default (`Options.Draft.options`). -/
def Options.shape : Shape Options.Draft Options where
  name := "struct CompileOptions"
  slots :=
    [.of "directivePrefix" (·.directivePrefix) (fun d s => { d with directivePrefix := some s })
      Json.text,
     .of "modifierSeparator" (·.modifierSeparator)
      (fun d c => { d with modifierSeparator := some c }) Json.character,
     .of "delimiters" (·.delimiters) (fun d p => { d with delimiters := some p }) Json.pair,
     .of "markupWrapper" (·.markupWrapper) (fun d w => { d with markupWrapper := some w })
      (Json.optional (Json.record Wrapper.shape)),
     .of "inputEvent" (·.inputEvent) (fun d s => { d with inputEvent := some s }) Json.text]
  empty := {}
  ofObject d := .ok d.options
  ofArray _ d := .ok d.options

/-- Reads options from JSON text, valid or not; `Options.fromText` reads valid ones. -/
def Options.read (text : String) : Except Fault Options :=
  Json.readWith (Json.record Options.shape) text

end ViewBinding

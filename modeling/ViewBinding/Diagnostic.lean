import ViewBinding.Options

/-!
# Diagnostics and errors

A diagnostic is a finding about one directive that does not stop the pass; an error stops a pass
before it starts, or a template or options from being read.
-/

namespace ViewBinding

open Json (Value Fault Slot Shape)

/-- A finding about a directive. It never ends a pass, unlike a `CompileError`. -/
structure Diagnostic where
  code : String
  message : String
  key : Option String := none
  /-- The name of the directive's attribute as written, if one is given (`with_directive`). -/
  directive : Option String := none
deriving DecidableEq, Repr, Inhabited

namespace Diagnostic

/-! ## The kinds of findings -/

/-- The code for a directive that nothing is registered for, `DIAG_UNKNOWN_DIRECTIVE`. -/
def unknownDirectiveCode : String := "W-DIRECTIVE-UNKNOWN"

/-- The code for a directive that names no known method, `DIAG_MISSING_HANDLER`. -/
def missingHandlerCode : String := "W-HANDLER-MISSING"

/-- The code for an event directive that names no event, `DIAG_MISSING_EVENT_NAME`. -/
def missingEventCode : String := "W-EVENT-NAME-MISSING"

/-- The code for markup that was injected as text, `DIAG_MARKUP_FALLBACK`. -/
def fallbackCode : String := "W-MARKUP-FALLBACK"

/-- What holds wherever a finding of the code is made (`get_guarantee`). -/
def guaranteeOf (code : String) : String :=
  if code = unknownDirectiveCode then
    "Unknown directives are ignored and never abort sibling or descendant bindings."
  else if code = missingHandlerCode then
    "A directive naming an absent method attaches no listener."
  else if code = missingEventCode then
    "Event bindings without an event name attach no listener."
  else if code = fallbackCode then
    "Markup that cannot become a single node is injected as plain text."
  else "Unknown diagnostic."

def guarantee (d : Diagnostic) : String :=
  guaranteeOf d.code

/-- The finding in one line: the `code` in brackets, and the message. -/
def display (d : Diagnostic) : String :=
  "[" ++ d.code ++ "] " ++ d.message

/-- A directive that nothing is registered for (`Compiler.dispatch`). -/
def unknownDirective (name key : String) : Diagnostic :=
  ⟨unknownDirectiveCode, "unknown directive `" ++ name ++ "`", some key, some name⟩

/-- A directive that names no known method (`Strategy.applyEventBinding`). -/
def missingHandler (name key : String) : Diagnostic :=
  ⟨missingHandlerCode, "cannot find method `" ++ key ++ "`", some key, some name⟩

/-- An event directive that names no event (`Strategy.applyEventBinding`). -/
def missingEvent (name key : String) : Diagnostic :=
  ⟨missingEventCode, "`" ++ name ++ "` does not name an event", some key, some name⟩

/-- A directive whose markup was injected as text (`Strategy.applyMarkupReplace`). -/
def markupFallback (name key : String) : Diagnostic :=
  ⟨fallbackCode, "value of `" ++ key ++ "` was injected as plain text", some key, some name⟩

/-! ## JSON form -/

/-- The JSON form of a diagnostic, which `Diagnostic.read` reads. -/
def toValue (d : Diagnostic) : Value :=
  .ofMembers
    [("code", .string d.code), ("message", .string d.message), ("key", optionalText d.key),
     ("directive", optionalText d.directive)]

/-- A diagnostic some fields of which have been read. -/
structure Draft where
  code : Option String := none
  message : Option String := none
  key : Option (Option String) := none
  directive : Option (Option String) := none

/-- How a diagnostic is read: an object may lack the `key` and the `directive`, an array nothing. -/
def shape : Shape Draft Diagnostic where
  name := "struct Diagnostic"
  slots :=
    [.of "code" (·.code) (fun d s => { d with code := some s }) Json.text,
     .of "message" (·.message) (fun d s => { d with message := some s }) Json.text,
     .of "key" (·.key) (fun d s => { d with key := some s }) (Json.optional Json.text),
     .of "directive" (·.directive) (fun d s => { d with directive := some s })
      (Json.optional Json.text)]
  empty := {}
  ofObject d := do
    .ok ⟨← Json.required "code" d.code, ← Json.required "message" d.message, d.key.join,
      d.directive.join⟩
  ofArray count d :=
    match d.code, d.message, d.key, d.directive with
    | some code, some message, some key, some directive => .ok ⟨code, message, key, directive⟩
    | _, _, _, _ => .error (Json.invalidLength count "struct Diagnostic with 4 elements")

/-- Reads a diagnostic from JSON text, whatever its `code`. -/
def read (text : String) : Except Fault Diagnostic :=
  Json.readWith (Json.record shape) text

end Diagnostic

/-! ## Errors -/

/-- Why there is no view, or no compile pass over it. -/
inductive CompileError where
  /-- The template has no element (`parse_template`). -/
  | missingRoot
  /-- The root of the view is a text (`Compiler.compile`). -/
  | rootNotElement
  /-- The options have a flaw (`Options.validate`). -/
  | invalidOptions (flaw : Options.Flaw)
  /-- The options cannot be read (`Options.fromText`). -/
  | config (fault : Fault)
deriving Repr

namespace CompileError

/-- The error in words; of the options that cannot be read (`config`) only a text of the wrong shape has
words of its own. -/
def message : CompileError → Option String
  | missingRoot => some "template has no root element"
  | rootNotElement => some "view root must be an element node"
  | invalidOptions flaw => some ("invalid compile options: " ++ flaw.message)
  | config (.mismatch message) => some ("failed to read compile options: " ++ message)
  | config _ => none

end CompileError

/-- Refuses options with a flaw (`Options.flaw?`). -/
def Options.validate (o : Options) : Except CompileError Unit :=
  match o.flaw? with
  | some flaw => .error (.invalidOptions flaw)
  | none => .ok ()

/-- Reads valid options from JSON text (`from_json` of `CompileOptions`). -/
def Options.fromText (text : String) : Except CompileError Options := do
  let o ← (Options.read text).mapError .config
  o.validate
  return o

end ViewBinding

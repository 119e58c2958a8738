import ViewBinding.Session.Command

/-!
# Actions

What a client does: it asks commands of a session one after the other, each chosen in view of the
replies before, and comes to a reply of its own. An action is finite whatever is replied, so what
can go on forever is only that clients make each other run.

The commands of an action hand over the code of clients, which are again actions, with a value seen
put in.
-/

namespace ViewBinding

open Json (Value)

/-- What a client does: a tree of commands that branches with the replies. -/
inductive Action where
  | done (reply : Reply)
  | ask (command : Command (Value → Action)) (next : Reply → Action)

instance : Inhabited Action := ⟨.done .nothing⟩

/-- The code of a client. It sees the value that it is told, or the event that it hears as a string, and is
what `Command.subscribe`, `listen` and the table of methods hand over. -/
abbrev Client := Value → Action

namespace Action

/-- A single command. -/
def command (c : Command Client) : Action :=
  ask c done

/-- One action after the other, in view of the reply that the first comes to. -/
def andThen : Action → (Reply → Action) → Action
  | done reply, f => f reply
  | ask c next, f => ask c fun reply => (next reply).andThen f

/-- An action for a model value that another one comes to; on any other reply, such as `.failed`, it ends.
-/
def withValue (a : Action) (f : Option Value → Action) : Action :=
  a.andThen fun
    | .value v => f v
    | reply => done reply

/-- An action that is refused for a reason of its own, but first because of a name without a node
(`.noSuchNode`). -/
def refuse (node : String) (f : Failure) : Action :=
  ask (.query (.known node)) fun
    | .failed g => done (.failed g)
    | _ => done (.failed f)

/-! ## Ready-made actions of clients

The session has no command for these: they are what a client makes of several commands, for observers,
listeners and methods to do when they are called. -/

/-- Sets a key to the value under another one, `null` if there is none. -/
def copy (source key : String) : Action :=
  (command (.query (.get source))).withValue fun v => command (.set key (v.getD .null))

/-- The integer after another one, among the signed ones of 64 bits, where the largest is followed by the
smallest. -/
def successor (n : Int) : Int := Int.bmod (n + 1) (Number.twoPow 64)

/-- Adds one to an integer as `successor` does; anything else counts as zero. -/
def increment (key : String) : Action :=
  (command (.query (.get key))).withValue fun v =>
    command (.set key (.int (successor ((v.bind Value.asInt64?).getD 0))))

/-- Adds a text to the end of the value as `Value.display` shows it. -/
def concat (key text : String) : Action :=
  (command (.query (.get key))).withValue fun v =>
    command (.set key (.string (Value.display v ++ text)))

/-- Types a text into an element, as a user does: sets the value field (`set_value`) and fires an event
(`dispatch_event`). -/
def type (node text event : String) : Action :=
  ask (.edit (.setValue node text)) fun
    | .flag changed =>
      ask (.fire node event) fun
        | .count heard => done (.typed changed heard)
        | reply => done reply
    | reply => done reply

/-- Takes a node out of its parent and releases it (`detach` of a `Compiler`). -/
def detachAndRelease (node : String) : Action :=
  ask (.edit (.detach node)) fun _ => command (.ending (.release node))

end Action

/-! ## Scripts -/

/-- A step of a script: an action in view of what the client sees, if it sees anything and that is the
`condition`. -/
structure Step where
  condition : Option Value := none
  action : Option Value → Action
deriving Inhabited

namespace Step

/-- A step that takes no notice of what the client sees. -/
def always (a : Action) : Step := ⟨none, fun _ => a⟩

/-- A step that sets a key to what the client sees. -/
def setSeen (key : String) : Step :=
  ⟨none, fun seen => .command (.set key (seen.getD .null))⟩

/-- Takes a step, or skips it if the client does not see what it asks for (`Value.same`). -/
def start (step : Step) (seen : Option Value) : Action :=
  match step.condition with
  | none => step.action seen
  | some expected =>
    if seen.any fun v => v.same expected then step.action seen else .done .skipped

/-- Takes some steps one after the other, whatever they come to (`andThen`). -/
def startAll (seen : Option Value) : List Step → Action
  | [] => .done .nothing
  | step :: rest => (step.start seen).andThen fun _ => startAll seen rest

/-- The client that notes under a name that it was called (`.enter`), and takes some steps. -/
def client (name : String) (steps : List Step) : Client :=
  fun seen => .ask (.enter name seen) fun _ => startAll (some seen) steps

end Step

end ViewBinding

import ViewBinding.Compiler
import ViewBinding.Text.Quoted
import ViewBinding.Visit

/-!
# Commands

What can be asked of a session, and what it replies. Nodes, subscriptions, listeners and lists of
guards go by the names under which the session keeps them.

Three commands make clients run: `set` tells the observers of a key, `fire` tells the listeners of
an event, and `call` runs a method. Three hand over the code of a client: `subscribe`, `listen` and
`retain`. All the others come in families, none of which has anything to do with clients.
-/

namespace ViewBinding

open Json (Value)

/-! ## Families without clients -/

/-- Commands that only look. `Session.look` replies to them. -/
inductive Query where
  | get (key : String)
  /-- How many observers a key has (`subscriber_count`). -/
  | count (key : String)
  /-- The table of methods, and whether there is one of the given name (`contains`). -/
  | methods (name : String)
  | known (node : String)
  /-- Whether two names stand for one node (`ptr_eq`). -/
  | same (node other : String)
  /-- What there is to know about a node, as an `Info`. -/
  | info (node : String)
  | tree (node : String)
  /-- The text form of what is below a node (`inner_html`). -/
  | inner (node : String)
  | describe (node : String)
  /-- The value of an attribute (`attribute`). -/
  | attributeOf (node name : String)
  /-- The directives on a node (`parse_directives`). -/
  | directives (node : String) (options : Options)
  /-- How many listeners of a node hear an event (`listener_count`). -/
  | listeners (node event : String)
  /-- How many nodes a traversal meets that starts at a node (`walk_node`). -/
  | visited (node : String)

/-- Commands that give a name to a node (`Session.handle`). They reply whether there is such a node. -/
inductive Handle where
  | build (name : String) (markup : Markup)
  /-- The root of the view that a template describes (`parse_template`). -/
  | parse (name markup : String)
  /-- The child at a position of `children`. -/
  | child (name node : String) (index : Nat)
  /-- One of the elements among the `descendants` of a node that have a tag, or one of the texts. -/
  | find (name node : String) (tag : Option String) (nth : Nat)
  | parent (name node : String)
  /-- Takes a name away, by which nodes may die. -/
  | drop (name : String)

/-- Commands that change a view, with nobody told of it (`Session.edit`). -/
inductive Edit where
  /-- Sets an attribute (`set_attribute`). -/
  | setAttribute (node name value : String)
  /-- Makes a node the last child of another one (`append_child`). -/
  | append (node child : String)
  /-- Puts a node in front of a child (`insert_before`). -/
  | insertBefore (node child reference : String)
  /-- Takes a child out (`remove_child`). -/
  | remove (node child : String)
  /-- Takes a node out of its parent (`detach`). -/
  | detach (node : String)
  /-- Sets the text of a text node (`set_payload`). -/
  | setPayload (node text : String)
  /-- Sets the value field of an element (`set_value`). -/
  | setValue (node text : String)
  /-- Sets the text content of a node (`set_text_content`). -/
  | setText (node text : String)
  /-- Takes a listener away (`remove_event_listener`). -/
  | unlisten (node name : String)
  /-- Takes all listeners away (`clear_event_listeners`). -/
  | clearListeners (node : String)
  /-- Lets a visitor go over everything below a node, and over the node itself if asked to. -/
  | visit (node : String) (includingRoot : Bool) (visit : Visit)

/-- Commands that end subscriptions (`Session.finish`). -/
inductive Ending where
  /-- Ends a kept subscription (`unsubscribe`). -/
  | unsubscribe (name : String)
  /-- Ends a subscription that is given in full, whoever made it. -/
  | cancel (subscription : Subscription)
  /-- Takes the guards of a node and keeps them as a list (`take_subscriptions`). -/
  | take (node name : String)
  /-- Ends the subscriptions of a list of guards one by one (`release` of a guard). -/
  | releaseGuards (name : String)
  /-- Forgets a list of guards, by which their subscriptions end (`drop` of a guard). -/
  | dropGuards (name : String)
  /-- Releases a node and everything below it (`release_subtree`). -/
  | release (node : String)

/-- Commands that bind a view (`Session.bind`). -/
inductive Bind where
  /-- Compiles everything below a node (`Compiler.compile`). -/
  | compile (node : String) (options : Options) (registry : Registry)
  /-- Dispatches a directive on a node (`Compiler.dispatch`). -/
  | dispatch (node name value : String) (options : Options) (registry : Registry)
  /-- Applies a strategy to a node (`Strategy.apply`); without a value, that of the key. -/
  | apply (node : String) (strategy : Strategy) (key : String) (modifier : Option String)
    (name : String) (value : Option Value) (options : Options)
  /-- Binds the first marker of a text node (`bind_text`). -/
  | text (node : String) (delimiters : String × String)

/-! ## Commands -/

/-- What can be asked of a session. `κ` is the code of clients. -/
inductive Command (κ : Type) where
  /-- Sets the value of a key and tells its observers (`Session.set`). -/
  | set (key : String) (value : Value)
  /-- Tells the listeners of an event at a node (`Session.fire`). -/
  | fire (node event : String)
  /-- Runs a method on the store of the scope. -/
  | call (name event : String)
  /-- Lets a client observe a key (`Session.subscribe`). -/
  | subscribe (name key : String) (code : κ)
  /-- Lets a client hear an event at a node (`Session.listen`). -/
  | listen (node event name : String) (code : κ)
  /-- Lets a client observe a key as long as a node lives (`Session.retain`). -/
  | retain (node key : String) (code : κ)
  | query (q : Query)
  | handle (h : Handle)
  | edit (e : Edit)
  | ending (e : Ending)
  | bind (b : Bind)
  /-- Puts a new store in the place of the current one, which lives on while a listener works on it. -/
  | newStore (value : Value)
  /-- Notes a text in the history. -/
  | note (text : String)
  /-- Notes that a client was called, and what it saw. -/
  | enter (name : String) (seen : Value)

/-! ## Replies -/

/-- Why a command has no effect. -/
inductive Failure where
  | noSuchNode
  | noSuchName
  | badInput
  /-- Clients call each other without an end in sight (see `depth`). -/
  | endless
  /-- A template or a view cannot be compiled (`CompileError`). -/
  | compile (e : CompileError)

/-- What there is to know about a node: what `is_element`, `tag`, `has_children`, `payload`, `value` and
`text_content` answer, and two numbers. -/
structure Info where
  element : Bool
  tag : Option String
  hasChildren : Bool
  hasParent : Bool
  payload : Option String
  /-- The value field of an element that takes input, `value`. -/
  value : String
  textContent : String
  /-- How many guards the node holds (`subscription_count`). -/
  subscriptions : Nat
  /-- How many nodes there are below it (`descendants`). -/
  descendants : Nat

/-- What a session replies to a `Command`. -/
inductive Reply where
  | nothing
  | skipped
  | failed (f : Failure)
  | flag (b : Bool)
  | count (n : Nat)
  | text (s : Option String)
  | texts (list : List String)
  | value (v : Option Value)
  | subscription (s : Subscription)
  /-- Whether typing changed the value field, and how many listeners heard of it. -/
  | typed (changed : Bool) (heard : Nat)
  | methods (names : List String) (found : Bool)
  | info (i : Info)
  | markup (m : Markup)
  | directives (list : List Directive)
  /-- The keys of some guards, and whether each was released with success (`World.giveUp`). -/
  | released (list : List (String × Bool))
  | report (r : Report)
  | applied (outcome : Outcome) (diagnostics : List Diagnostic)
  | marker (m : Option Marker)
  | registry (r : Registry)

/-! ## How things are shown

A node is shown by its text form in quotes; a table of methods and a registry by the names in them,
in order; a guard by its subscription; a listener by its number. -/

/-- A view as it is shown in a message: its text form in quotes (`Text.quoted`). -/
def View.describe {κ : Type} (t : View κ) : String :=
  "Node(" ++ Text.quoted t.toMarkup.outer ++ ")"

/-- The names of methods as they are shown in a message, `MethodTable` first. -/
def describeMethods (names : List String) : String :=
  "MethodTable \x7b methods: " ++ Text.quotedList names ++ " \x7d"

/-- A registry as it is shown in a message: the names of its `kinds`. -/
def Registry.describe (r : Registry) : String :=
  "Registry \x7b kinds: " ++ Text.quotedList (r.kinds.map (·.name)) ++ " \x7d"

/-- A subscription as it is shown in a message, with its `id` and its `key`. -/
def Subscription.describe (s : Subscription) : String :=
  "Subscription \x7b id: " ++ toString s.id ++ ", key: " ++ Text.quoted s.key ++ " \x7d"

/-- A guard that holds its subscription as it is shown in a message (see `Subscription.describe`). -/
def Guard.describe (g : Guard) : String :=
  "SubscriptionGuard \x7b subscription: Some(" ++ g.subscription.describe ++ ") \x7d"

/-- The number of a listener as it is shown in a message, `ListenerId` first. -/
def describeListener (id : Nat) : String :=
  "ListenerId(" ++ toString id ++ ")"

end ViewBinding

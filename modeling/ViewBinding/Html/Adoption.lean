import ViewBinding.Html.Construction

/-!
# Misnested formatting

A closing tag of a formatting element may come while other elements are open inside it. `adopt`
closes the element all the same: what follows the tag is formatted no more, while an element that
was opened inside keeps the formatting for the content that it had.
-/

namespace ViewBinding.Html

namespace Construction

/-- Closes the innermost ordinary element of the given name, unless a special element (`specialNames`) is
open inside it. -/
def closeOther (b : Construction) (name : String) : Construction :=
  match b.stack.find? fun e => e.name.isHtml name || e.name.isIn specialNames with
  | some e =>
    if e.name.isHtml name then (b.closeImpliedExcept name).popThrough fun d => d.id == e.id else b
  | none => b

/-- The forest with the tree of the given number in a new place. -/
def moveTo (forest : Forest Item) (n : Nat) (place : Place) : Forest Item :=
  match forest.find? n with
  | some t => putTree (forest.erase n) t place
  | none => forest

/-- What is carried along the elements between a formatting element and the block inside it (`climb`). -/
structure Climb where
  state : Construction
  last : Nat
  /-- The earliest new formatting element, behind which the adopted one comes in the list. -/
  bookmark : Option Nat
  /-- The elements that stay open, the outermost one first. -/
  kept : List OpenElement

/-- How many formatting elements between are renewed; `climbOver` forgets the others. -/
def renewalLimit : Nat := 3

/-- Passes one element between, the one so many steps outward from the block: a formatting element
is renewed and takes in what was passed before; any other closes. -/
def climbOver (count : Nat) (c : Climb) (e : OpenElement) : Climb :=
  let b := c.state
  match b.formatting.find? (isEntryOf e.id) with
  | some (.element _ tag) =>
    if renewalLimit < count then { c with state := b.forget e.id }
    else
      let n := b.next
      let fresh := Tree.node n (Item.element ⟨.html, tag.name⟩ tag.attributes) []
      { state :=
          { b with
            forest := moveTo (b.forest ++ [fresh]) c.last (.lastIn n)
            next := n + 1
            formatting := b.formatting.map fun entry =>
              if isEntryOf e.id entry then .element n tag else entry }
        last := n
        bookmark := some (c.bookmark.getD n)
        kept := ⟨n, ⟨.html, tag.name⟩, false⟩ :: c.kept }
  | _ => c

/-- Passes all elements between, from the block outward (`climbOver`). -/
def climb : Nat → Climb → List OpenElement → Climb
  | _, c, [] => c
  | count, c, e :: es => climb (count + 1) (climbOver count c e) es

/-- The list with the new entry: behind the `bookmark`, and without the old entry; or in the place of the
old entry. -/
def replaceEntry (old : Nat) (bookmark : Option Nat) (entry : FormattingEntry)
    (entries : List FormattingEntry) : List FormattingEntry :=
  match bookmark with
  | none => entries.map fun e => if isEntryOf old e then entry else e
  | some n =>
    (entries.flatMap fun e => if isEntryOf n e then [entry, e] else [e]).eraseP (isEntryOf old)

/-- Closes a formatting element around a block that is open inside it. `inner` are the open elements
inside the formatting element, `outer` those around it. -/
def adoptBlock (b : Construction) (id : Nat) (tag : Tag) (block : OpenElement)
    (inner outer : List OpenElement) : Construction :=
  let above := inner.takeWhile fun e => e.id != block.id
  let between := (inner.dropWhile fun e => e.id != block.id).drop 1
  let c := climb 1 ⟨b, block.id, none, []⟩ between
  let b := c.state
  let ancestor := outer.headD ⟨0, rootName, false⟩
  let t := b.forest.find? c.last
  let taken := b.forest.erase c.last
  let place := { b with forest := taken }.placeIn ancestor
  let forest := match t with
    | some t => putTree taken t place
    | none => taken
  let n := b.next
  let name : ElementName := ⟨.html, tag.name⟩
  let wrap := Tree.mapChildren fun row => [Tree.node n (Item.element name tag.attributes) row]
  { b with
    forest := forest.update block.id wrap
    next := n + 1
    formatting := replaceEntry id c.bookmark (.element n tag) b.formatting
    stack := above ++ ⟨n, name, false⟩ :: block :: (c.kept.reverse ++ outer) }

/-- Closes the latest formatting element of the given name once; answers whether there may be more
to close. -/
def adoptOnce (b : Construction) (name : String) : Construction × Bool :=
  match (recentFormatting b.formatting).find? fun e => e.2.name = name with
  | none => (b.closeOther name, false)
  | some (id, tag) =>
    if b.stack.all fun e => e.id != id then (b.forget id, false)
    else if !anyUpTo (stopsScope []) (fun e => e.id == id) b.stack then (b, false)
    else
      let inner := b.stack.takeWhile fun e => e.id != id
      let outer := (b.stack.dropWhile fun e => e.id != id).drop 1
      match (inner.filter fun e => e.name.isIn specialNames).getLast? with
      | none => ({ b with stack := outer }.forget id, false)
      | some block => (b.adoptBlock id tag block inner outer, true)

/-- Closes formatting elements of the given name, as long as there may be more to close (`adoptOnce`). -/
def adoptUpTo (name : String) : Nat → Construction → Construction
  | 0, b => b
  | rounds + 1, b =>
    match b.adoptOnce name with
    | (b, true) => adoptUpTo name rounds b
    | (b, false) => b

/-- How often a closing tag may close a formatting element around a block; `adopt` tries no more. -/
def adoptionLimit : Nat := 8

/-- Closes the formatting element of the given name, whatever is open inside it, as `</b>` in
`<b><p></b></p>`. -/
def adopt (b : Construction) (name : String) : Construction :=
  if b.currentIs name && !b.formatting.any (isEntryOf b.current.id) then b.pop
  else adoptUpTo name adoptionLimit b

/-- Closes the link that is open where another `a` opens. -/
def leaveLink (b : Construction) : Construction :=
  match (recentFormatting b.formatting).find? fun e => e.2.name = "a" with
  | none => b
  | some (id, _) => ((b.adopt "a").forget id).removeOpen id

end Construction

end ViewBinding.Html

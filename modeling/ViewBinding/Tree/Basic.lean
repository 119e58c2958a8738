/-!
# Trees of named nodes

A tree whose nodes carry a number and a value; a forest is a list of trees. The numbers name the
nodes: where all numbers of a forest differ (`Forest.Distinct`), a number stands for one place.
Every change of a forest goes through `expand`, which puts a row of trees in the place of one.

Each function comes as a pair, on a tree and on a forest.
-/

namespace ViewBinding

/-- A tree with a number and a value at every node. -/
inductive Tree (α : Type) where
  | node (id : Nat) (val : α) (children : List (Tree α))
deriving Inhabited

/-- A row of trees. -/
abbrev Forest (α : Type) := List (Tree α)

namespace Tree

variable {α β : Type}

def id : Tree α → Nat
  | node n _ _ => n

def val : Tree α → α
  | node _ a _ => a

def children : Tree α → Forest α
  | node _ _ ts => ts

def mapRoot (f : α → α) : Tree α → Tree α
  | node n a ts => node n (f a) ts

def mapChildren (f : Forest α → Forest α) : Tree α → Tree α
  | node n a ts => node n a (f ts)

end Tree

/-! ## Nodes in document order -/

mutual

/-- The nodes of a tree with their values, each before the nodes below it, as `descendants` lists them. -/
def Tree.nodes {α : Type} : Tree α → List (Nat × α)
  | .node n a ts => (n, a) :: Forest.nodes ts

/-- The nodes of a forest with their values, in document order. -/
def Forest.nodes {α : Type} : Forest α → List (Nat × α)
  | [] => []
  | t :: ts => Tree.nodes t ++ Forest.nodes ts

end

/-- The numbers in a tree, in document order. -/
def Tree.ids {α : Type} (t : Tree α) : List Nat :=
  t.nodes.map Prod.fst

/-- The numbers in a forest, in document order. -/
def Forest.ids {α : Type} (ts : Forest α) : List Nat :=
  (Forest.nodes ts).map Prod.fst

/-- Whether every number of the forest stands for one place: what makes `find?` and `parent?` speak of the
same node. -/
def Forest.Distinct {α : Type} (ts : Forest α) : Prop :=
  (Forest.ids ts).Nodup

/-! ## Looking up -/

mutual

/-- The subtree with the given number, the first one in document order. -/
def Tree.find? {α : Type} (n : Nat) : Tree α → Option (Tree α)
  | .node m a ts => if m = n then some (.node m a ts) else Forest.find? n ts

def Forest.find? {α : Type} (n : Nat) : Forest α → Option (Tree α)
  | [] => none
  | t :: ts =>
    match Tree.find? n t with
    | some s => some s
    | none => Forest.find? n ts

end

mutual

/-- The number of the node right above the one with the given number (`parent`). -/
def Tree.parent? {α : Type} (n : Nat) : Tree α → Option Nat
  | .node m _ ts => if ts.any (fun t => t.id = n) then some m else Forest.parent? n ts

/-- The number of the node right above the one with the given number; a root of the forest has
none. -/
def Forest.parent? {α : Type} (n : Nat) : Forest α → Option Nat
  | [] => none
  | t :: ts =>
    match Tree.parent? n t with
    | some m => some m
    | none => Forest.parent? n ts

end

/-! ## Changing -/

mutual

/-- The row that a tree becomes when `f` is put in the place of the subtree with the given number. -/
def Tree.expand {α : Type} (n : Nat) (f : Tree α → Forest α) : Tree α → Forest α
  | .node m a ts => if m = n then f (.node m a ts) else [.node m a (Forest.expand n f ts)]

/-- The forest with a row of trees in the place of the subtree with the given number: by `expand` every
other change of place is said. -/
def Forest.expand {α : Type} (n : Nat) (f : Tree α → Forest α) : Forest α → Forest α
  | [] => []
  | t :: ts => Tree.expand n f t ++ Forest.expand n f ts

end

mutual

/-- The tree with every value changed. -/
def Tree.map {α β : Type} (f : α → β) : Tree α → Tree β
  | .node n a ts => .node n (f a) (Forest.map f ts)

/-- The forest with every value changed. -/
def Forest.map {α β : Type} (f : α → β) : Forest α → Forest β
  | [] => []
  | t :: ts => Tree.map f t :: Forest.map f ts

end

namespace Forest

variable {α : Type}

/-- The forest with the subtree of the given number changed, in its place. -/
def update (n : Nat) (f : Tree α → Tree α) (ts : Forest α) : Forest α :=
  ts.expand n fun t => [f t]

/-- The forest without the subtree of the given number (`expand` to nothing). -/
def erase (n : Nat) (ts : Forest α) : Forest α :=
  ts.expand n fun _ => []

/-- The value at the given number. -/
def val? (n : Nat) (ts : Forest α) : Option α :=
  (ts.find? n).map Tree.val

/-- The row below the given number (`children`); empty where there is no such node. -/
def children (n : Nat) (ts : Forest α) : Forest α :=
  match ts.find? n with
  | some t => t.children
  | none => []

/-! ## Moving -/

/-- The forest with the subtree of the given number made a root of its own (`detach`). -/
def detach (n : Nat) (ts : Forest α) : Forest α :=
  match ts.parent? n, ts.find? n with
  | some _, some t => ts.erase n ++ [t]
  | _, _ => ts

/-- The subtree `child`, if there is one and it can stand below `parent`: nothing stands below itself. -/
def movable? (parent child : Nat) (ts : Forest α) : Option (Tree α) :=
  match ts.find? parent, ts.find? child with
  | some _, some t => if t.ids.contains parent then none else some t
  | _, _ => none

/-- The forest with the subtree `child` as the last one below `parent` (`append_child`). -/
def append (parent child : Nat) (ts : Forest α) : Forest α :=
  match ts.movable? parent child with
  | none => ts
  | some t => (ts.erase child).update parent (Tree.mapChildren (· ++ [t]))

/-- The forest with the subtree `child` right in front of `reference` (`insert_before`), if that stands
below `parent` once `child` is taken out of its place; else as the last one below `parent`. -/
def insertBefore (parent child reference : Nat) (ts : Forest α) : Forest α :=
  match ts.movable? parent child with
  | none => ts
  | some t =>
    let rest := ts.erase child
    if rest.parent? reference = some parent then rest.expand reference fun s => [t, s]
    else rest.update parent (Tree.mapChildren (· ++ [t]))

/-- Whether `child` stands right below `parent`. -/
def isChild (parent child : Nat) (ts : Forest α) : Bool :=
  ts.parent? child = some parent

/-- The forest with the subtree `child`, if it stands right below `parent`, made a root of its own
(`remove_child`). -/
def remove (parent child : Nat) (ts : Forest α) : Forest α :=
  if ts.isChild parent child then ts.detach child else ts

end Forest

end ViewBinding

import ViewBinding.Proofs.Compile.Itinerary
import ViewBinding.Proofs.Guards.Sessions
import ViewBinding.Proofs.Tree.Rows
import ViewBinding.Proofs.World.Content
import Mathlib.Data.List.Flatten

/-!
# Which nodes a traversal meets

All that goes over a view meets nodes in document order and differs in the nodes below which it goes
on.  `View.met` leaves that open.  A visitor that goes on everywhere meets all descendants; one that
does nothing of its own, and the text content, go on below elements only.  Nothing keeps a node
from being put below a text, and there the two part.

* `View.metRow_eq_filter` — a traversal meets the nodes above which it goes on everywhere.
* `View.visitedRow_eq_met`, `Compiler.itineraryRow_eq_met`, `Visit.rowOf_pruning` — what visits, compile
  passes and visitors that prune meet.
* `View.rowChars_eq_flatMap` — the text content is made of the texts that are met.
* `TraversalsAgree`, `traversals_agree` — what all of them have to do with the descendants.
-/

namespace ViewBinding

/-- Leaving out members of a list shows in what the list is mapped to, unless there are none. -/
theorem map_filter_eq_map_iff {α β : Type} (f : α → β) (p : α → Bool) (l : List α) :
    (l.filter p).map f = l.map f ↔ ∀ x ∈ l, p x = true := by
  rw [← List.filter_eq_self]
  refine ⟨fun heq => ?_, congrArg _⟩
  have hlength : (l.filter p).length = l.length := by simpa using congrArg List.length heq
  exact List.filter_sublist.eq_of_length hlength

/-- Leaving out members of a list shows in what they are strung together to, unless they add nothing. -/
theorem flatMap_filter_eq_flatMap_iff {α β : Type} (f : α → List β) (p : α → Bool) :
    ∀ l : List α, (l.filter p).flatMap f = l.flatMap f ↔ ∀ x ∈ l, p x = false → f x = []
  | [] => by simp
  | x :: l => by
    have ih := flatMap_filter_eq_flatMap_iff f p l
    rw [List.forall_mem_cons, ← ih, List.flatMap_cons]
    cases hx : p x with
    | true => simp [List.filter_cons_of_pos hx]
    | false =>
      rw [List.filter_cons_of_neg (by simp [hx])]
      constructor
      · intro heq
        -- without `x` there is not more than with it
        have hle : ((l.filter p).flatMap f).length ≤ (l.flatMap f).length :=
          (List.filter_sublist.flatMap f).length_le
        have hlength := congrArg List.length heq
        rw [List.length_append] at hlength
        have hnil : f x = [] := List.length_eq_zero_iff.1 (by omega)
        exact ⟨fun _ => hnil, by rw [heq, hnil, List.nil_append]⟩
      · rintro ⟨hnil, heq⟩
        rw [hnil rfl, List.nil_append, heq]

/-- What is noted for a node. -/
def Visit.note {κ : Type} (n : Node κ) : String :=
  match n.content with
  | .text payload => noteText payload
  | .element tag _ _ => tag

/-- The characters that a node adds to a `text_content`. -/
def Node.chars {κ : Type} (n : Node κ) : List Char := (n.payload?.getD "").toList

/-! ## What is met -/

namespace View

variable {κ : Type}

mutual

/-- The nodes of a view in the order in which a traversal meets them that goes on below the nodes that
`goes` picks. -/
def met (goes : Node κ → Bool) : View κ → List (NodeId × Node κ)
  | .node id n row => (id, n) :: if goes n then metRow goes row else []

/-- The nodes of a row of views in the order in which a traversal meets them. -/
def metRow (goes : Node κ → Bool) : Forest (Node κ) → List (NodeId × Node κ)
  | [] => []
  | t :: ts => met goes t ++ metRow goes ts

end

section

variable (goes : Node κ → Bool)

mutual

theorem met_eq_filter {above : List (Node κ)} (habove : above.all goes = true) :
    ∀ t : View κ, met goes t =
      ((Tree.lineage above t).filter fun x => x.1.all goes).map fun x => x.2
  | .node id n row => by
    rw [met, Tree.lineage, List.filter_cons_of_pos (by simp [habove]), List.map_cons]
    congr 1
    cases hn : goes n with
    | true =>
      have hwhole : (n :: above).all goes = true := by simp [hn, habove]
      simpa using metRow_eq_filter hwhole row
    | false =>
      -- the node stands above everything below it
      have hnone : (Forest.lineage (n :: above) row).filter (fun x => x.1.all goes) = [] := by
        rw [List.filter_eq_nil_iff]
        intro x hx hall
        have hgoes := List.all_eq_true.1 hall n
          (Forest.above_of_mem_lineage x hx n List.mem_cons_self)
        simp [hn] at hgoes
      rw [hnone]
      simp

/-- A traversal meets, in document order, the nodes above which it goes on everywhere. -/
theorem metRow_eq_filter {above : List (Node κ)} (habove : above.all goes = true) :
    ∀ row : Forest (Node κ), metRow goes row =
      ((Forest.lineage above row).filter fun x => x.1.all goes).map fun x => x.2
  | [] => by rw [metRow, Forest.lineage, List.filter_nil, List.map_nil]
  | t :: ts => by
    rw [metRow, Forest.lineage, List.filter_append, List.map_append, met_eq_filter habove t,
      metRow_eq_filter habove ts]

end

/-- A traversal meets all nodes of a row if and only if it goes on everywhere above one of them. -/
theorem metRow_eq_nodes_iff (row : Forest (Node κ)) :
    metRow goes row = Forest.nodes row ↔ ∀ x ∈ Forest.lineage [] row, x.1.all goes = true := by
  rw [metRow_eq_filter goes List.all_nil row, ← Forest.lineage_nodes [] row, map_filter_eq_map_iff]

end

mutual

theorem met_congr {f g : Node κ → Bool} :
    ∀ {t : View κ}, (∀ x ∈ t.nodes, f x.2 = g x.2) → met f t = met g t
  | .node id n row, h => by
    rw [Tree.nodes, List.forall_mem_cons] at h
    rw [met, met, h.1, metRow_congr h.2]

/-- What a traversal meets depends on where it goes on in the row. -/
theorem metRow_congr {f g : Node κ → Bool} :
    ∀ {row : Forest (Node κ)}, (∀ x ∈ Forest.nodes row, f x.2 = g x.2) → metRow f row = metRow g row
  | [], _ => by rw [metRow, metRow]
  | t :: ts, h => by
    rw [Forest.nodes, List.forall_mem_append] at h
    rw [metRow, metRow, met_congr h.1, metRow_congr h.2]

end

mutual

theorem visited_eq_met : ∀ t : View κ, visited t = met Node.isElement t
  | .node id n row => by rw [visited, met, visitedRow_eq_met row]

/-- The nodes of `View.visitedRow` are met if one goes on below elements. -/
theorem visitedRow_eq_met : ∀ row : Forest (Node κ), visitedRow row = metRow Node.isElement row
  | [] => by rw [visitedRow, metRow]
  | t :: ts => by rw [visitedRow, metRow, visited_eq_met t, visitedRow_eq_met ts]

end

/-! ## The text content -/

mutual

theorem textChars_eq_flatMap :
    ∀ t : View κ, textChars t = (visited t).flatMap fun x => x.2.chars
  | .node id n row => by
    rw [textChars, visited]
    split
    · next payload hc => simp [Node.isElement, Node.chars, Node.payload?, hc]
    · next tag attributes field hc =>
      simpa [Node.isElement, Node.chars, Node.payload?, hc] using rowChars_eq_flatMap row

/-- The `text_content` of a row is made of the texts that a visit meets, in their order. -/
theorem rowChars_eq_flatMap :
    ∀ row : Forest (Node κ), rowChars row = (visitedRow row).flatMap fun x => x.2.chars
  | [] => by rw [rowChars, visitedRow, List.flatMap_nil]
  | t :: ts => by
    rw [rowChars, visitedRow, List.flatMap_append, textChars_eq_flatMap t, rowChars_eq_flatMap ts]

end

/-- The texts among some nodes as one text. -/
def joined (nodes : List (NodeId × Node κ)) : String :=
  String.ofList (nodes.flatMap fun x => x.2.chars)

theorem textContent_eq_joined {t : View κ} (ht : t.val.isElement = true) :
    t.textContent = joined (visitedRow t.children) := by
  rw [textContent_of_element ht, rowChars_eq_flatMap, joined]

/-- The `text_content` of a row leaves out nothing if and only if what stands below texts adds nothing. -/
theorem joined_visitedRow_eq_iff (row : Forest (Node κ)) :
    joined (visitedRow row) = joined (Forest.nodes row) ↔
      ∀ x ∈ Forest.lineage [] row, x.1.all Node.isElement = false → x.2.2.chars = [] := by
  rw [joined, joined, String.ofList_inj, visitedRow_eq_met, metRow_eq_filter _ List.all_nil,
    ← Forest.lineage_nodes [] row, List.flatMap_map, List.flatMap_map]
  exact flatMap_filter_eq_flatMap_iff _ _ _

end View

/-! ## Compile passes and visitors -/

mutual

theorem Compiler.itinerary_eq_met {κ : Type} (c : Compiler κ) : ∀ t : View κ,
    c.itinerary t = (View.met (fun n => n.isElement && !c.seals n) t).map fun x => c.stopAt x.1 x.2
  | .node id n row => by
    rw [itinerary, View.met, itineraryRow_eq_met c row, List.map_cons]
    split <;> rfl

/-- A `compile` pass goes on below the elements whose content is not sealed. -/
theorem Compiler.itineraryRow_eq_met {κ : Type} (c : Compiler κ) : ∀ row : Forest (Node κ),
    c.itineraryRow row =
      (View.metRow (fun n => n.isElement && !c.seals n) row).map fun x => c.stopAt x.1 x.2
  | [] => by rw [itineraryRow, View.metRow, List.map_nil]
  | t :: ts => by
    rw [itineraryRow, View.metRow, itinerary_eq_met c t, itineraryRow_eq_met c ts, List.map_append]

end

/-- Whether a visitor that prunes at some tags goes on below a node. -/
def Visit.goesOn {κ : Type} (prune : List String) (n : Node κ) : Bool :=
  n.tag?.any fun tag => tag ∉ prune

mutual

theorem Visit.node_pruning {κ : Type} (prune : List String) (w : World κ) : ∀ t : View κ,
    ({ prune } : Visit).node t w = ((View.met (goesOn prune) t).map fun x => note x.2, w)
  | .node id n row => by
    rw [node, View.met]
    split
    · next payload hc => simp [note, goesOn, Node.tag?, hc]
    · next tag attributes field hc =>
      by_cases hp : tag ∈ prune
      · simp [change, note, goesOn, Node.tag?, hc, hp]
      · simp [change, note, goesOn, Node.tag?, hc, hp, rowOf_pruning prune w row]

/-- A visitor that only prunes notes what it meets, and changes nothing. -/
theorem Visit.rowOf_pruning {κ : Type} (prune : List String) (w : World κ) :
    ∀ row : Forest (Node κ),
      ({ prune } : Visit).rowOf row w = ((View.metRow (goesOn prune) row).map fun x => note x.2, w)
  | [] => by rw [rowOf, View.metRow, List.map_nil]
  | t :: ts => by
    rw [rowOf, View.metRow, node_pruning prune w t, List.map_append]
    simp only [rowOf_pruning prune w ts]

end

theorem Visit.goesOn_nil {κ : Type} : goesOn [] = (Node.isElement : Node κ → Bool) := by
  funext n
  cases hc : n.content <;> simp [goesOn, Node.tag?, Node.isElement, hc]

/-! ## What all of them have to do with the descendants -/

namespace Session

/-- What the traversals below the element `r` agree on, where `t` is its view. -/
structure TraversalsAgree (s : Session) (r : NodeId) (t : View Client) : Prop where
  /-- A traversal meets, in document order, the descendants above which it goes on everywhere. -/
  met : ∀ goes, View.metRow goes t.children =
    ((Forest.lineage [] t.children).filter fun x => x.1.all goes).map fun x => x.2
  /-- One that always goes on meets exactly the descendants. -/
  everywhere : View.metRow (fun _ => true) t.children = Forest.nodes t.children
  descendants : (Forest.nodes t.children).map Prod.fst = s.world.forest.descendants r
  /-- It meets each of them once. -/
  once : (s.world.forest.descendants r).Nodup
  /-- `View.visitedRow` goes on below elements only. -/
  visited : View.visitedRow t.children = View.metRow Node.isElement t.children
  /-- A visitor without anything of its own meets what `View.visitedRow` does, and changes nothing. -/
  visitor : ∀ w : World Client, ({} : Visit).rowOf t.children w =
    ((View.visitedRow t.children).map fun x => Visit.note x.2, w)
  /-- So does a `compile` pass that finds no content sealed. -/
  pass : ∀ c : Compiler Client, (∀ x ∈ Forest.nodes t.children, c.seals x.2 = false) →
    (c.itineraryRow t.children).map (fun stop => (stop.node, stop.val)) = View.visitedRow t.children
  /-- A release by `release_subtree` reaches all descendants. -/
  released : Forest.nodes t.released.children =
    (Forest.nodes t.children).map fun x => (x.1, x.2.release)
  /-- The `text_content` is made of the texts that a visitor meets. -/
  text : t.textContent = View.joined (View.visitedRow t.children)
  /-- A visitor meets all descendants if and only if nothing stands below a text. -/
  visited_iff : View.visitedRow t.children = Forest.nodes t.children ↔
    ∀ x ∈ Forest.lineage [] t.children, x.1.all Node.isElement = true
  /-- The `text_content` is that of all `descendants` if and only if no text with a character stands below
  a text. -/
  text_iff : t.textContent = View.joined (Forest.nodes t.children) ↔
    ∀ x ∈ Forest.lineage [] t.children, x.1.all Node.isElement = false → x.2.2.chars = []

/-- **What traversals agree on**, in every session and below every element: a visitor, a compile pass
and the text content go on below elements only, and meet the descendants if and only if nothing stands
below a text. -/
theorem traversals_agree {model : Json.Value} {methods : List (String × Client)} {s : Session}
    (hs : Moves (start model methods) s) {r : NodeId} {t : View Client}
    (ht : s.world.forest.find? r = some t) (hr : t.val.isElement = true) : s.TraversalsAgree r t where
  met goes := View.metRow_eq_filter goes List.all_nil t.children
  everywhere := (View.metRow_eq_nodes_iff _ _).2 fun x _ => List.all_eq_true.2 fun _ _ => rfl
  descendants := by
    rw [Forest.descendants, Forest.children, ht]
    rfl
  once := Forest.nodup_descendants hs.accounted.world.distinct r
  visited := View.visitedRow_eq_met t.children
  visitor w := by
    rw [View.visitedRow_eq_met, ← Visit.goesOn_nil]
    exact Visit.rowOf_pruning [] w t.children
  pass c hc := by
    have hmet : View.metRow (fun n => n.isElement && !c.seals n) t.children =
        View.metRow Node.isElement t.children :=
      View.metRow_congr fun x hx => by simp [hc x hx]
    rw [c.itineraryRow_eq_met, hmet, ← View.visitedRow_eq_met, List.map_map]
    exact List.map_id _
  released := by
    obtain ⟨id, n, children⟩ := t
    rw [View.released, Tree.map]
    exact Forest.nodes_map _ _
  text := View.textContent_eq_joined hr
  visited_iff := by
    rw [View.visitedRow_eq_met]
    exact View.metRow_eq_nodes_iff _ _
  text_iff := by
    rw [View.textContent_eq_joined hr]
    exact View.joined_visitedRow_eq_iff t.children

/-- A session with a text below a text. -/
def textBelowText : Session :=
  (start (.ofMembers []) []).runs [
    .command (.handle (.build "page" (.element "p" [] [.text "a", .element "b" [] [.text "c"]]))),
    .command (.handle (.find "outer" "page" none 0)),
    .command (.handle (.build "inner" (.text "b"))),
    .command (.edit (.append "outer" "inner"))]

/-- A visitor that always goes on meets the text below the text; a visit and the text content do
not. -/
theorem text_below_text_not_visited : ∃ t : View Client, textBelowText.world.forest.find? 0 = some t ∧
    (View.metRow (fun _ => true) t.children).map Prod.fst = [1, 4, 2, 3] ∧
    textBelowText.world.forest.descendants 0 = [1, 4, 2, 3] ∧
    (View.visitedRow t.children).map Prod.fst = [1, 2, 3] ∧
    View.joined (Forest.nodes t.children) = "abc" ∧ View.textContent t = "ac" := by
  have hreachable : Moves (start (.ofMembers []) []) textBelowText := moves_runs _ _
  have hseen : (textBelowText.world.forest.find? 0).map (fun t => (t.val.isElement,
      textBelowText.world.forest.descendants 0,
      (View.visitedRow t.children).map Prod.fst,
      View.joined (Forest.nodes t.children), View.joined (View.visitedRow t.children))) =
        some (true, [1, 4, 2, 3], [1, 2, 3], "abc", "ac") := by
    decide +kernel
  obtain ⟨t, ht, hseen⟩ := Option.map_eq_some_iff.1 hseen
  obtain ⟨hr, hdescendants, hmet, hall, hshown⟩ : t.val.isElement = true ∧
      textBelowText.world.forest.descendants 0 = [1, 4, 2, 3] ∧
      (View.visitedRow t.children).map Prod.fst = [1, 2, 3] ∧
      View.joined (Forest.nodes t.children) = "abc" ∧
      View.joined (View.visitedRow t.children) = "ac" := by
    simpa only [Prod.mk.injEq] using hseen
  have hagree := traversals_agree hreachable ht hr
  refine ⟨t, ht, ?_, hdescendants, hmet, hall, hagree.text.trans hshown⟩
  rw [hagree.everywhere, hagree.descendants, hdescendants]

end Session

end ViewBinding

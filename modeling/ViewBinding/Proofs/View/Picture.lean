import ViewBinding.View.Basic
import Mathlib.Tactic.Common

/-!
# Pictures of views

What there is to see of a view: tags, attributes, value fields and texts, without numbers, listeners
and guards.  Two pictures look `Alike` if they are the same but for texts without a character.

* `picture_ofMarkup` — the view of a piece of markup has the picture of it.
* `TextShown.setText` — once a text content is set, it is what an element shows.
-/

namespace ViewBinding

/-- What there is to see of a view: the `Content` of its nodes, without their numbers and what binds them.
-/
inductive Picture where
  | node (content : Content) (children : List Picture)

namespace Picture

/-! ## Empty texts -/

mutual

/-- The picture without empty texts: nothing if it is one itself (`solidRow` for what is below). -/
def solid : Picture → List Picture
  | .node content row => if content = .text "" then [] else [.node content (solidRow row)]

/-- The pictures of a row without empty texts. -/
def solidRow : List Picture → List Picture
  | [] => []
  | p :: ps => solid p ++ solidRow ps

end

/-- Whether two pictures are the same up to empty texts: a marker can leave one, `set_text_content` leaves
none. -/
def Alike (p q : Picture) : Prop := p.solid = q.solid

@[simp] theorem solidRow_nil : solidRow [] = [] := by
  rw [solidRow]

@[simp] theorem solidRow_cons (p : Picture) (ps : List Picture) :
    solidRow (p :: ps) = p.solid ++ solidRow ps := by
  rw [solidRow]

theorem Alike.node {content : Content} {ps qs : List Picture} (h : solidRow ps = solidRow qs) :
    Alike (.node content ps) (.node content qs) := by
  rw [Alike, solid, solid, h]

/-! ## Markup -/

mutual

/-- The picture of a piece of markup, the same as that of its view (`View.ofMarkup`). -/
def ofMarkup : Markup → Picture
  | .text payload => .node (.text payload) []
  | .element tag attributes children => .node (.element tag attributes none) (ofRow children)

/-- The pictures of a row of markup. -/
def ofRow : List Markup → List Picture
  | [] => []
  | m :: ms => ofMarkup m :: ofRow ms

end

end Picture

namespace View

variable {κ : Type}

mutual

/-- The picture of a view, what stands below its texts included. -/
def picture : View κ → Picture
  | .node _ n row => .node n.content (pictureRow row)

/-- The pictures of a row of views. -/
def pictureRow : Forest (Node κ) → List Picture
  | [] => []
  | t :: ts => picture t :: pictureRow ts

end

@[simp] theorem picture_node (id : NodeId) (n : Node κ) (row : List (View κ)) :
    picture (.node id n row) = .node n.content (pictureRow row) := by
  rw [picture]

@[simp] theorem pictureRow_nil : pictureRow ([] : Forest (Node κ)) = [] := by
  rw [pictureRow]

@[simp] theorem pictureRow_cons (t : View κ) (ts : Forest (Node κ)) :
    pictureRow (t :: ts) = picture t :: pictureRow ts := by
  rw [pictureRow]

mutual

theorem picture_ofMarkup (next : NodeId) :
    ∀ m : Markup, picture (ofMarkup next m : View κ × NodeId).1 = .ofMarkup m
  | .text payload => by simp [ofMarkup, Picture.ofMarkup, Node.ofText]
  | .element tag attributes children => by
    simp [ofMarkup, Picture.ofMarkup, pictureRow_ofRow (next + 1) children]

theorem pictureRow_ofRow (next : NodeId) :
    ∀ ms : List Markup, pictureRow (ofRow next ms : Forest (Node κ) × NodeId).1 = Picture.ofRow ms
  | [] => by simp [ofRow, Picture.ofRow]
  | m :: ms => by
    simp [ofRow, Picture.ofRow, picture_ofMarkup next m, pictureRow_ofRow _ ms]

end

/-! ## Bare texts -/

mutual

/-- Whether nothing stands below any text of a view; what stands there is not in `toMarkup`. -/
def bare : View κ → Bool
  | .node _ n row => (n.isElement || row.isEmpty) && bareRow row

/-- Whether nothing stands below any text of a row of views. -/
def bareRow : Forest (Node κ) → Bool
  | [] => true
  | t :: ts => bare t && bareRow ts

end

theorem bare_node (id : NodeId) (n : Node κ) (row : List (View κ)) :
    bare (.node id n row) = ((n.isElement || row.isEmpty) && bareRow row) := by
  rw [bare]

@[simp] theorem bareRow_nil : bareRow ([] : Forest (Node κ)) = true := by
  rw [bareRow]

@[simp] theorem bareRow_cons (t : View κ) (ts : Forest (Node κ)) :
    bareRow (t :: ts) = (bare t && bareRow ts) := by
  rw [bareRow]

/-! ## Text content -/

/-- Whether a row shows a text and nothing else: at most one text node, with nothing below it. -/
def TextShown (text : String) (row : Forest (Node κ)) : Prop :=
  (text = "" ∧ row = []) ∨
    ∃ id n, row = [.node id n []] ∧ n.content = .text text

theorem TextShown.bareRow_eq {text : String} {row : Forest (Node κ)} (h : TextShown text row) :
    bareRow row = true := by
  rcases h with ⟨-, rfl⟩ | ⟨id, n, rfl, -⟩
  · rfl
  · simp [bare_node]

theorem TextShown.solidRow_eq {text : String} {row : Forest (Node κ)} (h : TextShown text row) :
    Picture.solidRow (pictureRow row) = Picture.solidRow [.node (.text text) []] := by
  rcases h with ⟨rfl, rfl⟩ | ⟨id, n, rfl, hn⟩
  · simp [Picture.solid]
  · simp [hn]

theorem textShown_textRow (fresh : NodeId) (text : String) :
    TextShown text (textRow fresh text : Forest (Node κ)) := by
  unfold textRow
  split
  · next h => exact Or.inl ⟨h, rfl⟩
  · exact Or.inr ⟨fresh, Node.ofText text, rfl, rfl⟩

/-- A row that shows a text already is that text. -/
theorem exists_of_showsAlready {text : String} {row : Forest (Node κ)}
    (h : showsAlready text row = true) :
    ∃ id n below, row = [.node id n below] ∧ n.content = .text text := by
  unfold showsAlready at h
  split at h
  · next id n below =>
    have hpayload : n.payload? = some text := by simpa using h
    unfold Node.payload? at hpayload
    split at hpayload
    · next hc => exact ⟨id, n, below, rfl, by rw [hc, Option.some.inj hpayload]⟩
    · exact absurd hpayload (by simp)
  · exact absurd h (by simp)

theorem textShown_of_showsAlready {text : String} {row : Forest (Node κ)}
    (h : showsAlready text row = true) (hbare : bareRow row = true) : TextShown text row := by
  obtain ⟨id, n, below, rfl, hn⟩ := exists_of_showsAlready h
  have hbelow : below = [] ∧ bareRow below = true := by
    simpa [bare_node, Node.isElement, hn] using hbare
  exact Or.inr ⟨id, n, by rw [hbelow.1], hn⟩

/-- Setting the text content of an element leaves it alone if it shows the text already (`showsAlready`).
-/
theorem setText_element (fresh id : NodeId) (text : String) {n : Node κ} {row : Forest (Node κ)}
    (hn : n.isElement = true) :
    setText fresh text (.node id n row) =
      if showsAlready text row then ⟨.node id n row, false, []⟩
      else ⟨.node id n (textRow fresh text), true, row⟩ := by
  simp [setText, hn]

/-- Once its text content is set (`set_text_content`), an element shows that text and nothing else. -/
theorem TextShown.setText (fresh id : NodeId) (text : String) {n : Node κ} {row : Forest (Node κ)}
    (hn : n.isElement = true) (hbare : bareRow row = true) :
    ∃ row', (setText fresh text (.node id n row)).view = .node id n row' ∧ TextShown text row' := by
  rw [setText_element fresh id text hn]
  split
  · next h => exact ⟨row, rfl, textShown_of_showsAlready h hbare⟩
  · exact ⟨_, rfl, textShown_textRow fresh text⟩

end View

end ViewBinding

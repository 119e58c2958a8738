import ViewBinding.Options
import ViewBinding.Proofs.Interpolation.Matches

/-!
# Blank markers in front

A marker whose text is blank is passed over: the search goes on behind it as if the template began
there.  An empty marker is none in the sense of the search, whose text has at least one character;
what starts with one is read up to the next closing delimiter on the line.

* `locate_append_of_first` — a blank first occurrence shifts what is found in the rest.
* `locate_append_of_not_at` — so does a text in which no occurrence starts.
* `skips_filled_blank_markers` — any number of blank markers that are not empty, and exactly when an
  empty one is skipped.
-/

namespace ViewBinding

namespace Marker

variable {opening closing : List Char}

/-- The same marker `n` bytes later. -/
def shift (n : Nat) (m : Marker) : Marker :=
  { m with start := n + m.start, stop := n + m.stop }

theorem shift_shift (a b : Nat) (m : Marker) : (m.shift b).shift a = m.shift (a + b) := by
  simp [shift, Nat.add_assoc]

/-! ## Behind a front -/

/-- An occurrence with more text in front, which is in its `before`. -/
def Occurrence.behind (front : List Char) (o : Occurrence) : Occurrence :=
  { o with before := front ++ o.before }

theorem Occurrence.At.behind {cs : List Char} {o : Occurrence} (ho : o.At opening closing cs)
    (front : List Char) : (o.behind front).At opening closing (front ++ cs) :=
  ⟨by rw [ho.text]; simp [Occurrence.behind], ho.filled, ho.line⟩

/-- An occurrence that starts behind the front is one of the rest. -/
theorem Occurrence.At.of_behind {front cs : List Char} {o : Occurrence}
    (ho : (o.behind front).At opening closing (front ++ cs)) : o.At opening closing cs := by
  refine ⟨?_, ho.filled, ho.line⟩
  have htext := ho.text
  simp only [Occurrence.behind, List.append_assoc] at htext
  simpa using List.append_cancel_left htext

theorem Scan.behind {passed rest : List Char} {os : List Occurrence}
    (h : Scan opening closing passed rest os) (front : List Char) :
    Scan opening closing (front ++ passed) rest (os.map (Occurrence.behind front)) := by
  induction h with
  | stop none => exact .stop none
  | @next passed rest o os first _ ih =>
    have hmore : Scan opening closing (front ++ passed ++ o.before ++ opening ++ o.raw ++ closing)
        o.after (os.map (Occurrence.behind front)) := by simpa using ih
    simpa [Occurrence.behind] using Scan.next first hmore

/-- Text in front moves what is bound by `shift`, and changes neither its key nor which it is. -/
theorem marker_find?_behind (front : List Char) (os : List Occurrence) :
    (((os.map (Occurrence.behind front)).find? fun o => !o.isBlank).map
        (Occurrence.marker opening closing)) =
      ((os.find? fun o => !o.isBlank).map (Occurrence.marker opening closing)).map
        (shift (Text.byteLength front)) := by
  rw [List.find?_map, Option.map_map, Option.map_map]
  congr 1
  funext o
  simp [Occurrence.behind, Occurrence.marker, shift]

/-- A blank first occurrence is passed over: `locate` goes on behind it. -/
theorem locate_append_of_first {before raw rest : List Char}
    (hfirst : Occurrence.First opening closing (before ++ opening ++ raw ++ closing ++ rest)
      ⟨before, raw, rest⟩)
    (hblank : raw.all Text.isBlank = true) :
    locate opening closing (before ++ opening ++ raw ++ closing ++ rest) =
      (locate opening closing rest).map
        (shift (Text.byteLength (before ++ opening ++ raw ++ closing))) := by
  obtain ⟨os, hos⟩ := exists_scan opening closing [] rest
  have hmore := hos.behind (before ++ opening ++ raw ++ closing)
  rw [List.append_nil] at hmore
  have hscan : Scan opening closing [] (before ++ opening ++ raw ++ closing ++ rest)
      (⟨before, raw, rest⟩ :: os.map (Occurrence.behind (before ++ opening ++ raw ++ closing))) :=
    .next hfirst hmore
  have hskip : Occurrence.isBlank ⟨before, raw, rest⟩ = true := hblank
  rw [locate_of_scan hscan, locate_of_scan hos, ← marker_find?_behind, List.find?_cons, hskip]
  rfl

/-- A text in which no occurrence starts is passed over. -/
theorem locate_append_of_not_at {front rest : List Char}
    (hfront : ∀ p : Occurrence, p.At opening closing (front ++ rest) →
      ∃ q : Occurrence, p = q.behind front) :
    locate opening closing (front ++ rest) =
      (locate opening closing rest).map (shift (Text.byteLength front)) := by
  obtain ⟨os, hos⟩ := exists_scan opening closing [] rest
  have hscan : Scan opening closing [] (front ++ rest) (os.map (Occurrence.behind front)) := by
    cases hos with
    | stop none =>
      refine .stop fun p hp => ?_
      obtain ⟨q, rfl⟩ := hfront p hp
      exact none q hp.of_behind
    | @next _ _ o os first more =>
      have hfirst : (o.behind front).First opening closing (front ++ rest) := by
        refine ⟨first.toAt.behind front, fun p hp => ?_, fun p hp hlength => ?_⟩
        · obtain ⟨q, rfl⟩ := hfront p hp
          have hle := first.start q hp.of_behind
          simp only [Occurrence.behind, List.length_append]
          omega
        · obtain ⟨q, rfl⟩ := hfront p hp
          refine first.stop q hp.of_behind ?_
          simpa [Occurrence.behind] using hlength
      have hmore := more.behind front
      refine Scan.next hfirst ?_
      simpa [Occurrence.behind] using hmore
  rw [locate_of_scan hscan, locate_of_scan hos, marker_find?_behind]

/-! ## Blank markers with the default delimiters -/

/-- A blank text on one line. -/
def IsBlankLine (w : String) : Prop :=
  w.toList.all Text.isBlank = true ∧ '\n' ∉ w.toList

/-- The marker around a text, with the delimiters of `Options`. -/
def around (w : String) : String :=
  "\x7b\x7b" ++ w ++ "\x7d\x7d"

/-- Markers around texts, one behind the other (`around`). -/
def arounds (ws : List String) : String :=
  String.join (ws.map around)

/-- Whether an empty marker in front of `rest` is read on: behind its first closing brace, another
closing delimiter starts on the same line. -/
def RunsOn (rest : String) : Prop :=
  ∃ a b, '}' :: rest.toList = a ++ ['}', '}'] ++ b ∧ '\n' ∉ a

theorem first_around {w : List Char} (hfilled : w ≠ []) (hblank : w.all Text.isBlank = true)
    (hline : '\n' ∉ w) (rest : List Char) :
    Occurrence.First ['{', '{'] ['}', '}'] ([] ++ ['{', '{'] ++ w ++ ['}', '}'] ++ rest)
      ⟨[], w, rest⟩ := by
  refine ⟨⟨rfl, hfilled, hline⟩, fun _ _ => Nat.zero_le _, fun p hp hfront => ?_⟩
  have htext := hp.text
  rw [List.eq_nil_of_length_eq_zero hfront] at htext
  simp only [List.nil_append, List.append_assoc] at htext
  have hraw := List.append_cancel_left htext
  -- a shorter text would have a brace of the closing delimiter in the blank one
  by_contra hlonger
  have hshort : p.raw.length < w.length := Nat.lt_of_not_le hlonger
  rcases List.append_eq_append_iff.1 hraw with ⟨l, hp', -⟩ | ⟨l, hw, hl⟩
  · rw [hp', List.length_append] at hshort
    omega
  · cases l with
    | nil => simp [hw] at hshort
    | cons c l =>
      obtain rfl : '}' = c := (List.cons.inj hl).1
      have hbrace := List.all_eq_true.1 hblank '}' (by rw [hw]; simp)
      exact absurd hbrace (by decide)

/-- A blank marker that is not empty is skipped, by `locate_append_of_first`. -/
theorem locate_around {w : List Char} (hfilled : w ≠ []) (hblank : w.all Text.isBlank = true)
    (hline : '\n' ∉ w) (rest : List Char) :
    locate ['{', '{'] ['}', '}'] (['{', '{'] ++ w ++ ['}', '}'] ++ rest) =
      (locate ['{', '{'] ['}', '}'] rest).map
        (shift (Text.byteLength (['{', '{'] ++ w ++ ['}', '}']))) :=
  locate_append_of_first (first_around hfilled hblank hline rest) hblank

theorem find?_default (template : String) :
    find? ({} : Options).delimiters template = locate ['{', '{'] ['}', '}'] template.toList :=
  rfl

theorem toList_around (w : String) : (around w).toList = ['{', '{'] ++ w.toList ++ ['}', '}'] := by
  rw [around, String.toList_append, String.toList_append]
  rfl

/-- **Blank markers are skipped, one after the other**, and what `find?` answers for the rest is shifted by
their bytes. -/
theorem find?_arounds {ws : List String} (hws : ∀ w ∈ ws, IsBlankLine w ∧ w ≠ "")
    (rest : String) :
    find? ({} : Options).delimiters (arounds ws ++ rest) =
      (find? ({} : Options).delimiters rest).map (shift (arounds ws).utf8ByteSize) := by
  induction ws with
  | nil =>
    have hsame : shift 0 = id := by
      funext m
      simp [shift]
    simp [arounds, hsame]
  | cons w ws ih =>
    obtain ⟨⟨hblank, hline⟩, hfilled⟩ := hws w List.mem_cons_self
    have hmore := ih fun v hv => hws v (List.mem_cons_of_mem _ hv)
    have hcons : arounds (w :: ws) = around w ++ arounds ws := by simp [arounds]
    have hsize : (arounds (w :: ws)).utf8ByteSize =
        Text.byteLength (around w).toList + (arounds ws).utf8ByteSize := by
      rw [hcons, Text.byteLength_eq_utf8ByteSize, String.ofList_toList, String.utf8ByteSize_append]
    have hstep := locate_around (w := w.toList) (by simpa using hfilled) hblank hline
      (arounds ws ++ rest).toList
    rw [find?_default] at hmore
    rw [find?_default, hcons, String.append_assoc, String.toList_append, toList_around, hstep, hmore,
      Option.map_map, ← hcons, hsize, toList_around]
    congr 1
    funext m
    exact shift_shift _ _ m

/-! ## Empty markers -/

/-- An occurrence that starts with an empty marker reads on (`RunsOn`). -/
theorem runsOn_of_at {rest : String} {p : Occurrence}
    (hp : p.At ['{', '{'] ['}', '}'] ("\x7b\x7b\x7d\x7d" ++ rest).toList) (hfront : p.before = []) :
    RunsOn rest ∧ ∃ a, p.raw = '}' :: a := by
  have htext := hp.text
  rw [hfront, String.toList_append] at htext
  cases hraw : p.raw with
  | nil => exact absurd hraw hp.filled
  | cons c a =>
    rw [hraw] at htext
    obtain ⟨hc, hmore⟩ := List.cons.inj (List.cons.inj (List.cons.inj htext).2).2
    obtain rfl : '}' = c := hc
    exact ⟨⟨a, p.after, hmore, fun h => hp.line (hraw ▸ List.mem_cons_of_mem _ h)⟩, a, rfl⟩

theorem exists_at_of_runsOn {rest : String} (h : RunsOn rest) :
    ∃ p : Occurrence, p.before = [] ∧
      p.At ['{', '{'] ['}', '}'] ("\x7b\x7b\x7d\x7d" ++ rest).toList := by
  obtain ⟨a, b, hrest, hline⟩ := h
  refine ⟨⟨[], '}' :: a, b⟩, rfl, ?_, by simp, by simpa using hline⟩
  rw [String.toList_append]
  exact congrArg (['{', '{', '}'] ++ ·) hrest

/-- No occurrence starts within an empty marker but at its front. -/
theorem behind_of_at {rest : String} {p : Occurrence}
    (hp : p.At ['{', '{'] ['}', '}'] ("\x7b\x7b\x7d\x7d" ++ rest).toList) (hfront : p.before ≠ []) :
    ∃ q : Occurrence, p = q.behind ['{', '{', '}', '}'] := by
  have htext := hp.text
  rw [String.toList_append] at htext
  obtain ⟨before, raw, after⟩ := p
  match before with
  | [] => exact absurd rfl hfront
  | [a] => simp at htext
  | [a, b] => simp at htext
  | [a, b, c] => simp at htext
  | a :: b :: c :: d :: before =>
    obtain ⟨rfl, rfl, rfl, rfl, -⟩ :
        '{' = a ∧ '{' = b ∧ '}' = c ∧ '}' = d ∧ _ := by simpa using htext
    exact ⟨⟨before, raw, after⟩, rfl⟩

/-- An empty marker that is read on is bound by `find?`, with the brace in its key. -/
theorem find?_of_runsOn {rest : String} (h : RunsOn rest) :
    ∃ m, find? ({} : Options).delimiters ("\x7b\x7b\x7d\x7d" ++ rest) = some m ∧ m.start = 0 ∧
      m.key.toList.head? = some '}' := by
  obtain ⟨p, hfront, hp⟩ := exists_at_of_runsOn h
  obtain ⟨os, hos⟩ := exists_scan ['{', '{'] ['}', '}'] [] ("\x7b\x7b\x7d\x7d" ++ rest).toList
  have hfind := locate_of_scan hos
  rw [← find?_default] at hfind
  cases hos with
  | stop none => exact absurd hp (none p)
  | @next _ _ o os first more =>
    have hbefore : o.before = [] := by
      have hle := first.start p hp
      rw [hfront] at hle
      exact List.eq_nil_of_length_eq_zero (Nat.le_zero.1 hle)
    obtain ⟨-, a, hraw⟩ := runsOn_of_at first.toAt hbefore
    have hhead : (Text.trim o.raw).head? = some '}' := by
      rw [hraw, Text.trim, Text.trimStart_of_not_blank (by decide), Text.trimEnd]
      cases Text.trimEnd a <;> rfl
    have hbound : Occurrence.isBlank { o with before := [] ++ o.before } = false := by
      rw [Occurrence.isBlank, hraw]
      rfl
    rw [List.find?_cons, hbound] at hfind
    refine ⟨_, hfind, ?_, ?_⟩
    · rw [Occurrence.marker, hbefore]
      rfl
    · rw [Occurrence.marker, String.toList_ofList]
      exact hhead

/-- An empty marker that is not read on (`RunsOn`) is skipped. -/
theorem find?_of_not_runsOn {rest : String} (h : ¬RunsOn rest) :
    find? ({} : Options).delimiters ("\x7b\x7b\x7d\x7d" ++ rest) =
      (find? ({} : Options).delimiters rest).map (shift "\x7b\x7b\x7d\x7d".utf8ByteSize) := by
  have htext : ("\x7b\x7b\x7d\x7d" ++ rest).toList = ['{', '{', '}', '}'] ++ rest.toList :=
    String.toList_append
  have hbehind : ∀ p : Occurrence,
      p.At ['{', '{'] ['}', '}'] (['{', '{', '}', '}'] ++ rest.toList) →
        ∃ q : Occurrence, p = q.behind ['{', '{', '}', '}'] := by
    intro p hp
    rw [← htext] at hp
    exact behind_of_at hp fun hfront => h (runsOn_of_at hp hfront).1
  rw [find?_default, htext]
  exact locate_append_of_not_at hbehind

/-- **What is skipped in front.** Blank markers that are not empty are skipped, however many; an
empty one is skipped exactly if the line has no closing delimiter behind its first brace, and
otherwise it is bound itself, under a key that starts with a brace. -/
theorem skips_filled_blank_markers (rest : String) :
    (∀ ws : List String, (∀ w ∈ ws, IsBlankLine w ∧ w ≠ "") →
      find? ({} : Options).delimiters (arounds ws ++ rest) =
        (find? ({} : Options).delimiters rest).map (shift (arounds ws).utf8ByteSize)) ∧
    (find? ({} : Options).delimiters (around "" ++ rest) =
        (find? ({} : Options).delimiters rest).map (shift (around "").utf8ByteSize) ↔
      ¬RunsOn rest) ∧
    (RunsOn rest → ∃ m, find? ({} : Options).delimiters (around "" ++ rest) = some m ∧
      m.start = 0 ∧ m.key.toList.head? = some '}') := by
  have hempty : around "" = "\x7b\x7b\x7d\x7d" := by decide
  refine ⟨fun ws hws => find?_arounds hws rest, ⟨fun hsame hruns => ?_, fun hruns => ?_⟩, ?_⟩
  · obtain ⟨m, hm, hstart, -⟩ := find?_of_runsOn hruns
    rw [hempty, hm] at hsame
    obtain ⟨n, -, rfl⟩ := Option.map_eq_some_iff.1 hsame.symm
    have hsize : "\x7b\x7b\x7d\x7d".utf8ByteSize = 4 := by decide
    simp only [shift, hsize] at hstart
    omega
  · rw [hempty]
    exact find?_of_not_runsOn hruns
  · rw [hempty]
    exact find?_of_runsOn

/-- The empty marker in front of `name` swallows it. -/
example : find? ({} : Options).delimiters "\x7b\x7b\x7d\x7d \x7b\x7b name \x7d\x7d" =
    some ⟨"\x7d\x7d \x7b\x7b name", 0, 15⟩ := by decide

end Marker

end ViewBinding

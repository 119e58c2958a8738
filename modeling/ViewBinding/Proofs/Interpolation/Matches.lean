import ViewBinding.Interpolation
import Mathlib.Tactic.Common

/-!
# The matches of a template

Where a template has the form of a marker is told without a search: `Occurrence.At` is the form,
`Occurrence.First` the least start and the least end for it, and `Scan` the occurrences one after
the other, each looked for behind the end of the one before.

* `next?_first`, `not_at_of_next?` — the search finds the first occurrence, or there is none.
* `exists_scan`, `Scan.unique` — every template has one such sequence.
* `findFrom_of_scan` — the search binds the first of the sequence that is not blank.
* `finds_first_filled_match` — all of it for a template, with what the marker cuts out.
-/

namespace ViewBinding

/-! ## Trimming -/

namespace Text

/-- `key` is what is left of `cs` without the blanks at its ends. -/
structure Trims (cs key : List Char) : Prop where
  /-- Only blanks (`isBlank`) are taken away. -/
  ends : ∃ left right, cs = left ++ key ++ right ∧ left.all isBlank ∧ right.all isBlank
  front : ∀ c ∈ key.head?, isBlank c = false
  back : ∀ c ∈ key.getLast?, isBlank c = false

theorem exists_trimEnd (cs : List Char) :
    ∃ right, cs = trimEnd cs ++ right ∧ right.all isBlank := by
  induction cs with
  | nil => exact ⟨[], rfl, rfl⟩
  | cons c cs ih =>
    obtain ⟨right, hcs, hright⟩ := ih
    rw [trimEnd]
    cases hkept : trimEnd cs with
    | cons d kept => exact ⟨right, by rw [List.cons_append, ← hkept, ← hcs], hright⟩
    | nil =>
      rw [hkept, List.nil_append] at hcs
      cases hc : isBlank c with
      | true => exact ⟨c :: cs, by simp, by rw [hcs, List.all_cons, hc, hright]; rfl⟩
      | false => exact ⟨cs, by simp, by rw [hcs]; exact hright⟩

theorem not_blank_of_mem_getLast? {cs : List Char} {c : Char} (hc : c ∈ (trimEnd cs).getLast?) :
    isBlank c = false := by
  induction cs with
  | nil => simp [trimEnd] at hc
  | cons d cs ih =>
    rw [trimEnd] at hc
    cases hkept : trimEnd cs with
    | nil =>
      rw [hkept] at hc
      cases hd : isBlank d with
      | true => simp [hd] at hc
      | false =>
        obtain rfl : d = c := by simpa [hd] using hc
        exact hd
    | cons e kept =>
      rw [hkept] at hc ih
      exact ih (by simpa using hc)

/-- Trimming at the end keeps the front. -/
theorem head?_trimEnd {cs : List Char} {c : Char} (hc : c ∈ (trimEnd cs).head?) :
    c ∈ cs.head? := by
  cases cs with
  | nil => simp [trimEnd] at hc
  | cons d cs =>
    rw [trimEnd] at hc
    split at hc
    · cases hd : isBlank d <;> simp_all
    · simpa using hc

theorem trims_trim (cs : List Char) : Trims cs (trim cs) where
  ends := by
    obtain ⟨right, hright, hblank⟩ := exists_trimEnd (trimStart cs)
    refine ⟨cs.takeWhile isBlank, right, ?_, List.all_takeWhile, hblank⟩
    rw [List.append_assoc, trim, ← hright, trimStart, List.takeWhile_append_dropWhile]
  front c hc := by
    have hhead : c ∈ (trimStart cs).head? := head?_trimEnd hc
    have hnot := List.head?_dropWhile_not isBlank cs
    rw [trimStart] at hhead
    rw [Option.mem_def.1 hhead] at hnot
    simpa using hnot
  back _ hc := not_blank_of_mem_getLast? hc

/-- Trimming leaves nothing exactly of a text in which every character `isBlank`. -/
theorem trim_eq_nil_iff {cs : List Char} : trim cs = [] ↔ cs.all isBlank = true := by
  rw [trim, trimEnd_eq_nil_iff]
  constructor
  · intro h
    rw [← List.takeWhile_append_dropWhile (p := isBlank) (l := cs), List.all_append,
      Bool.and_eq_true]
    exact ⟨List.all_takeWhile, h⟩
  · intro h
    rw [List.all_eq_true] at h ⊢
    exact fun c hc => h c ((List.dropWhile_suffix isBlank).subset hc)

theorem byteLength_eq_utf8ByteSize (cs : List Char) :
    byteLength cs = (String.ofList cs).utf8ByteSize := by
  induction cs with
  | nil => rfl
  | cons c cs ih => rw [byteLength, String.ofList_cons, ih]; simp

end Text

namespace Marker

/-! ## Occurrences -/

variable {opening closing : List Char}

/-- `o` is a part of `cs` in the form of a marker. -/
structure Occurrence.At (opening closing cs : List Char) (o : Occurrence) : Prop where
  text : cs = o.before ++ opening ++ o.raw ++ closing ++ o.after
  /-- There is text between the delimiters, at least one character as `.+?` asks. -/
  filled : o.raw ≠ []
  /-- That text is on one line. -/
  line : '\n' ∉ o.raw

/-- `o` is the occurrence that starts first, and that ends first among those that start there. -/
structure Occurrence.First (opening closing cs : List Char) (o : Occurrence) : Prop
    extends Occurrence.At opening closing cs o where
  /-- None starts before it. -/
  start : ∀ p : Occurrence, p.At opening closing cs → o.before.length ≤ p.before.length
  /-- None that starts there ends before it. -/
  stop : ∀ p : Occurrence, p.At opening closing cs → p.before.length = o.before.length →
    o.raw.length ≤ p.raw.length

/-- An occurrence is known by the lengths of its `before` and its `raw`. -/
theorem Occurrence.At.eq_of_lengths {cs : List Char} {o p : Occurrence}
    (ho : o.At opening closing cs) (hp : p.At opening closing cs)
    (hbefore : o.before.length = p.before.length) (hraw : o.raw.length = p.raw.length) : o = p := by
  have htext := ho.text.symm.trans hp.text
  simp only [List.append_assoc] at htext
  obtain ⟨hb, htext⟩ := List.append_inj htext hbefore
  obtain ⟨hr, htext⟩ := List.append_inj (List.append_cancel_left htext) hraw
  have ha := List.append_cancel_left htext
  cases o
  cases p
  simp_all

theorem Occurrence.First.unique {cs : List Char} {o p : Occurrence}
    (ho : o.First opening closing cs) (hp : p.First opening closing cs) : o = p := by
  have hbefore := Nat.le_antisymm (ho.start p hp.toAt) (hp.start o ho.toAt)
  exact ho.toAt.eq_of_lengths hp.toAt hbefore
    (Nat.le_antisymm (ho.stop p hp.toAt hbefore.symm) (hp.stop o ho.toAt hbefore))

/-! ## The search -/

theorem rawUpTo_eq_some {cs raw after : List Char} (h : rawUpTo closing cs = some (raw, after)) :
    cs = raw ++ closing ++ after ∧ raw ≠ [] ∧ '\n' ∉ raw := by
  induction cs generalizing raw with
  | nil => cases h
  | cons c cs ih =>
    rw [rawUpTo] at h
    split at h
    · cases h
    next hline =>
      cases hdrop : Text.dropStart? closing cs with
      | some rest =>
        rw [hdrop] at h
        obtain ⟨rfl, rfl⟩ : [c] = raw ∧ rest = after := by simpa using h
        exact ⟨by rw [Text.dropStart?_eq_some hdrop]; simp, by simp, by simpa using Ne.symm hline⟩
      | none =>
        rw [hdrop] at h
        obtain ⟨⟨raw', after'⟩, hmore, heq⟩ := Option.map_eq_some_iff.1 h
        obtain ⟨rfl, rfl⟩ : c :: raw' = raw ∧ after' = after := by simpa using heq
        obtain ⟨hcs, -, hraw⟩ := ih hmore
        refine ⟨by rw [hcs]; simp, by simp, ?_⟩
        exact fun hmem => (List.mem_cons.1 hmem).elim (fun heq => hline heq.symm) hraw

/-- The search for the closing delimiter (`rawUpTo`) stops at its first place. -/
theorem exists_rawUpTo (closing : List Char) {raw : List Char} (hfilled : raw ≠ [])
    (hline : '\n' ∉ raw) (after : List Char) :
    ∃ raw' after', rawUpTo closing (raw ++ closing ++ after) = some (raw', after') ∧
      raw'.length ≤ raw.length := by
  induction raw with
  | nil => exact absurd rfl hfilled
  | cons c raw ih =>
    have hc : c ≠ '\n' := fun heq => hline (heq ▸ List.mem_cons_self)
    rw [List.cons_append, List.cons_append, rawUpTo, if_neg hc]
    cases hdrop : Text.dropStart? closing (raw ++ closing ++ after) with
    | some rest => exact ⟨[c], rest, rfl, by simp⟩
    | none =>
      -- the closing delimiter does not stand right behind, so the text goes on
      have hraw : raw ≠ [] := by
        rintro rfl
        rw [List.nil_append, Text.dropStart?_append] at hdrop
        cases hdrop
      obtain ⟨raw', after', hmore, hle⟩ := ih hraw fun hmem => hline (List.mem_cons_of_mem _ hmem)
      exact ⟨c :: raw', after', by rw [hmore]; rfl, by simpa using hle⟩

theorem matchAt_eq_some {cs raw after : List Char}
    (h : matchAt opening closing cs = some (raw, after)) :
    Occurrence.At opening closing cs ⟨[], raw, after⟩ := by
  obtain ⟨rest, hdrop, hraw⟩ := Option.bind_eq_some_iff.1 h
  obtain ⟨hrest, hfilled, hline⟩ := rawUpTo_eq_some hraw
  exact ⟨by rw [Text.dropStart?_eq_some hdrop, hrest]; simp, hfilled, hline⟩

theorem exists_matchAt {cs : List Char} {o : Occurrence} (ho : o.At opening closing cs)
    (hfront : o.before = []) :
    ∃ raw after, matchAt opening closing cs = some (raw, after) ∧ raw.length ≤ o.raw.length := by
  obtain ⟨raw, after, hraw, hle⟩ := exists_rawUpTo closing ho.filled ho.line o.after
  refine ⟨raw, after, ?_, hle⟩
  rw [ho.text, hfront, matchAt, List.nil_append, List.append_assoc, List.append_assoc,
    Text.dropStart?_append, Option.bind_some, ← List.append_assoc]
  exact hraw

theorem Occurrence.At.cons {cs : List Char} {o : Occurrence} (ho : o.At opening closing cs)
    (c : Char) : Occurrence.At opening closing (c :: cs) { o with before := c :: o.before } :=
  ⟨by rw [ho.text]; rfl, ho.filled, ho.line⟩

/-- Where no marker stands at the front (`matchAt`), an occurrence is one of the rest. -/
theorem Occurrence.At.exists_tail {c : Char} {cs : List Char} {o : Occurrence}
    (ho : o.At opening closing (c :: cs)) (hmatch : matchAt opening closing (c :: cs) = none) :
    ∃ b, o.before = c :: b ∧ Occurrence.At opening closing cs { o with before := b } := by
  cases hb : o.before with
  | nil =>
    obtain ⟨raw, after, hsome, -⟩ := exists_matchAt ho hb
    rw [hmatch] at hsome
    cases hsome
  | cons d b =>
    have htext := ho.text
    rw [hb] at htext
    obtain ⟨rfl, hrest⟩ := List.cons.inj htext
    exact ⟨b, rfl, hrest, ho.filled, ho.line⟩

theorem not_at_nil (o : Occurrence) : ¬o.At opening closing [] := by
  intro ho
  have htext := ho.text
  simp [ho.filled] at htext

/-- Where `next?` finds nothing, nothing has the form of a marker. -/
theorem not_at_of_next? {cs : List Char} (h : next? opening closing cs = none) (o : Occurrence) :
    ¬o.At opening closing cs := by
  induction cs generalizing o with
  | nil => exact not_at_nil o
  | cons c cs ih =>
    rw [next?] at h
    split at h
    · cases h
    next hmatch =>
      intro ho
      obtain ⟨b, -, hat⟩ := ho.exists_tail hmatch
      exact ih (Option.map_eq_none_iff.1 h) _ hat

/-- What `next?` finds is the first occurrence. -/
theorem next?_first {cs : List Char} {o : Occurrence} (h : next? opening closing cs = some o) :
    o.First opening closing cs := by
  induction cs generalizing o with
  | nil => cases h
  | cons c cs ih =>
    rw [next?] at h
    split at h
    next raw after hmatch =>
      obtain rfl : ⟨[], raw, after⟩ = o := Option.some.inj h
      refine ⟨matchAt_eq_some hmatch, fun _ _ => Nat.zero_le _, fun p hp hfront => ?_⟩
      obtain ⟨raw', after', hsome, hle⟩ := exists_matchAt hp (List.eq_nil_of_length_eq_zero hfront)
      obtain ⟨rfl, rfl⟩ : raw = raw' ∧ after = after' := by simpa [hmatch] using hsome
      exact hle
    next hmatch =>
      obtain ⟨q, hq, rfl⟩ := Option.map_eq_some_iff.1 h
      have hfirst := ih hq
      refine ⟨hfirst.toAt.cons c, fun p hp => ?_, fun p hp hlength => ?_⟩
      · obtain ⟨b, hb, hat⟩ := hp.exists_tail hmatch
        rw [hb]
        exact Nat.succ_le_succ (hfirst.start _ hat)
      · obtain ⟨b, hb, hat⟩ := hp.exists_tail hmatch
        rw [hb] at hlength
        exact hfirst.stop { p with before := b } hat (Nat.succ.inj hlength)

/-! ## One occurrence after the other -/

/-- The occurrences in `rest`, each behind the end of the one before, as parts of
`passed ++ rest`. -/
inductive Scan (opening closing : List Char) :
    (passed rest : List Char) → List Occurrence → Prop
  | stop {passed rest : List Char} (none : ∀ o : Occurrence, ¬o.At opening closing rest) :
      Scan opening closing passed rest []
  | next {passed rest : List Char} {o : Occurrence} {os : List Occurrence}
      (first : o.First opening closing rest)
      (more : Scan opening closing (passed ++ o.before ++ opening ++ o.raw ++ closing) o.after os) :
      Scan opening closing passed rest ({ o with before := passed ++ o.before } :: os)

/-- Whether the text between the delimiters is blank. -/
def Occurrence.isBlank (o : Occurrence) : Bool :=
  o.raw.all Text.isBlank

/-- The marker of an occurrence, its key trimmed (`Text.trim`). -/
def Occurrence.marker (opening closing : List Char) (o : Occurrence) : Marker :=
  ⟨String.ofList (Text.trim o.raw), Text.byteLength o.before,
    Text.byteLength (o.before ++ opening ++ o.raw ++ closing)⟩

/-- An occurrence takes at least one character. -/
theorem Occurrence.At.length_after_lt {cs : List Char} {o : Occurrence}
    (ho : o.At opening closing cs) : o.after.length < cs.length := by
  have hfilled := List.length_pos_iff.2 ho.filled
  have hlength := congrArg List.length ho.text
  simp only [List.length_append] at hlength
  omega

theorem exists_scan (opening closing passed rest : List Char) :
    ∃ os, Scan opening closing passed rest os := by
  induction hn : rest.length using Nat.strongRecOn generalizing passed rest with
  | ind n ih =>
    cases hnext : next? opening closing rest with
    | none => exact ⟨[], .stop (not_at_of_next? hnext)⟩
    | some o =>
      have hfirst := next?_first hnext
      obtain ⟨os, hos⟩ := ih o.after.length (hn ▸ hfirst.toAt.length_after_lt)
        (passed ++ o.before ++ opening ++ o.raw ++ closing) o.after rfl
      exact ⟨_, .next hfirst hos⟩

/-- The sequence of a `Scan` is one. -/
theorem Scan.unique {passed rest : List Char} {os ps : List Occurrence}
    (ho : Scan opening closing passed rest os) (hp : Scan opening closing passed rest ps) :
    os = ps := by
  induction ho generalizing ps with
  | stop none =>
    cases hp with
    | stop => rfl
    | next first => exact absurd first.toAt (none _)
  | next first _ ih =>
    cases hp with
    | stop none => exact absurd first.toAt (none _)
    | next first' more' =>
      obtain rfl := first.unique first'
      rw [ih more']

/-- What a `Scan` goes through are occurrences in the whole text. -/
theorem Scan.at {passed rest : List Char} {os : List Occurrence}
    (h : Scan opening closing passed rest os) {o : Occurrence} (ho : o ∈ os) :
    o.At opening closing (passed ++ rest) := by
  induction h with
  | stop => cases ho
  | @next passed rest p os first _ ih =>
    have htext := first.text
    rcases List.mem_cons.1 ho with rfl | ho
    · exact ⟨by rw [htext]; simp, first.filled, first.line⟩
    · have hrest : passed ++ rest =
          passed ++ p.before ++ opening ++ p.raw ++ closing ++ p.after := by
        rw [htext]
        simp
      exact hrest ▸ ih ho

/-- **The search binds the first occurrence of the scan that is not blank**, or answers that there is none
(`findFrom`). -/
theorem findFrom_of_scan {passed rest : List Char} {os : List Occurrence}
    (h : Scan opening closing passed rest os) {fuel : Nat} (hfuel : rest.length < fuel) :
    findFrom opening closing fuel (Text.byteLength passed) rest =
      (os.find? fun o => !o.isBlank).map (Occurrence.marker opening closing) := by
  induction h generalizing fuel with
  | stop none =>
    obtain ⟨fuel, rfl⟩ : ∃ n, fuel = n + 1 := ⟨fuel - 1, by omega⟩
    rw [findFrom]
    split
    · rfl
    next o hnext => exact absurd (next?_first hnext).toAt (none o)
  | @next passed rest o os first _ ih =>
    obtain ⟨fuel, rfl⟩ : ∃ n, fuel = n + 1 := ⟨fuel - 1, by omega⟩
    have hnext : next? opening closing rest = some o := by
      cases hnext : next? opening closing rest with
      | none => exact absurd first.toAt (not_at_of_next? hnext o)
      | some p => rw [(next?_first hnext).unique first]
    have hshort := first.toAt.length_after_lt
    have hfound := ih (show o.after.length < fuel by omega)
    simp only [Text.byteLength_append] at hfound
    simp only [findFrom, hnext, List.find?_cons]
    by_cases hblank : Text.trim o.raw = []
    · have hskip : Occurrence.isBlank { o with before := passed ++ o.before } = true :=
        Text.trim_eq_nil_iff.1 hblank
      rw [if_pos hblank, hskip, hfound]
      rfl
    · have hkeep : Occurrence.isBlank { o with before := passed ++ o.before } = false :=
        Bool.eq_false_iff.2 fun h => hblank (Text.trim_eq_nil_iff.2 h)
      rw [if_neg hblank, hkeep]
      simp only [Bool.not_false, Option.map_some, Occurrence.marker, Text.byteLength_append]

/-! ## What a search returns -/

/-- The first marker with a key in a text, as `find?` on characters. -/
def locate (opening closing cs : List Char) : Option Marker :=
  findFrom opening closing (cs.length + 1) 0 cs

theorem locate_of_scan {cs : List Char} {os : List Occurrence}
    (h : Scan opening closing [] cs os) :
    locate opening closing cs =
      (os.find? fun o => !o.isBlank).map (Occurrence.marker opening closing) :=
  findFrom_of_scan h (Nat.lt_succ_self _)

theorem find?_of_scan {delimiters : String × String} {template : String} {os : List Occurrence}
    (h : Scan delimiters.1.toList delimiters.2.toList [] template.toList os) :
    find? delimiters template =
      (os.find? fun o => !o.isBlank).map
        (Occurrence.marker delimiters.1.toList delimiters.2.toList) :=
  locate_of_scan h

/-- `m` stands in `template` between `before` and `after`, and has its key from `raw`. -/
structure Binds (delimiters : String × String) (template : String) (m : Marker)
    (before raw after : String) : Prop where
  text : template = before ++ (delimiters.1 ++ raw ++ delimiters.2) ++ after
  filled : raw ≠ ""
  /-- That text is on one line. -/
  line : '\n' ∉ raw.toList
  /-- The key is the trimmed text. -/
  trimmed : Text.Trims raw.toList m.key.toList
  keyed : m.key ≠ ""
  start : m.start = before.utf8ByteSize
  stop : m.stop = (before ++ (delimiters.1 ++ raw ++ delimiters.2)).utf8ByteSize

section Binds

variable {delimiters : String × String} {template before raw after : String} {m : Marker}

/-- A marker starts between two characters, so a slice of the template may start there. -/
theorem Binds.isValid_start (h : m.Binds delimiters template before raw after) :
    String.Pos.Raw.IsValid template ⟨m.start⟩ :=
  String.Pos.Raw.isValid_iff_exists_append.2
    ⟨_, _, h.text.trans String.append_assoc, congrArg String.Pos.Raw.mk h.start⟩

/-- A marker stops between two characters. -/
theorem Binds.isValid_stop (h : m.Binds delimiters template before raw after) :
    String.Pos.Raw.IsValid template ⟨m.stop⟩ :=
  String.Pos.Raw.isValid_iff_exists_append.2 ⟨_, _, h.text, congrArg String.Pos.Raw.mk h.stop⟩

/-- What `render` puts in the place of a marker stands between the text before and the text after. -/
theorem Binds.render_eq (h : m.Binds delimiters template before raw after) (value : String) :
    m.render template value = before ++ value ++ after := by
  have hstart := h.start
  have hstop := h.stop
  rw [← String.ofList_toList (s := before), ← Text.byteLength_eq_utf8ByteSize] at hstart
  rw [← String.ofList_toList (s := before ++ _), ← Text.byteLength_eq_utf8ByteSize] at hstop
  have htake : Text.takeBytes m.start template.toList = before.toList := by
    rw [hstart, h.text, String.append_assoc, String.toList_append, Text.takeBytes_append]
  have hdrop : Text.dropBytes m.stop template.toList = after.toList := by
    rw [hstop, h.text, String.toList_append (t := after), Text.dropBytes_append]
  rw [render, htake, hdrop, String.ofList_append, String.ofList_append, String.ofList_toList,
    String.ofList_toList, String.ofList_toList]

end Binds

/-- The marker of an occurrence in a template that is not blank `Binds` the text there. -/
theorem binds_marker {delimiters : String × String} {template : String} {o : Occurrence}
    (ho : o.At delimiters.1.toList delimiters.2.toList template.toList)
    (hfilled : o.isBlank = false) :
    (o.marker delimiters.1.toList delimiters.2.toList).Binds delimiters template
      (String.ofList o.before) (String.ofList o.raw) (String.ofList o.after) := by
  have hparts : (String.ofList o.before ++ (delimiters.1 ++ String.ofList o.raw ++ delimiters.2)) =
      String.ofList (o.before ++ delimiters.1.toList ++ o.raw ++ delimiters.2.toList) := by
    simp [String.ofList_append, String.append_assoc]
  refine ⟨?_, ?_, ?_, ?_, ?_, Text.byteLength_eq_utf8ByteSize _, ?_⟩
  · rw [hparts, ← String.ofList_append, ← ho.text, String.ofList_toList]
  · intro hempty
    exact ho.filled (by simpa using congrArg String.toList hempty)
  · rw [String.toList_ofList]
    exact ho.line
  · rw [Occurrence.marker, String.toList_ofList, String.toList_ofList]
    exact Text.trims_trim o.raw
  · intro hempty
    have htrim : Text.trim o.raw = [] := by
      simpa [Occurrence.marker] using congrArg String.toList hempty
    rw [Occurrence.isBlank, Text.trim_eq_nil_iff.1 htrim] at hfilled
    cases hfilled
  · rw [hparts, ← Text.byteLength_eq_utf8ByteSize]
    rfl

/-- **The marker that is bound.** Every template has one sequence of matches (`Scan`), and `find?` returns
the marker of the first that is not blank; its value takes the place of that match and of nothing else. -/
theorem finds_first_filled_match (delimiters : String × String) (template : String) :
    ∃ os : List Occurrence,
      Scan delimiters.1.toList delimiters.2.toList [] template.toList os ∧
      (∀ ps, Scan delimiters.1.toList delimiters.2.toList [] template.toList ps → ps = os) ∧
      find? delimiters template =
        (os.find? fun o => !o.isBlank).map
          (Occurrence.marker delimiters.1.toList delimiters.2.toList) ∧
      (find? delimiters template = none ↔ ∀ o ∈ os, o.isBlank = true) ∧
      (find? delimiters template = none → ∀ value, renderFirst delimiters template value = template) ∧
      ∀ m, find? delimiters template = some m →
        String.Pos.Raw.IsValid template ⟨m.start⟩ ∧ String.Pos.Raw.IsValid template ⟨m.stop⟩ ∧
        ∃ before raw after : String, m.Binds delimiters template before raw after ∧
          ∀ value, m.render template value = before ++ value ++ after ∧
            renderFirst delimiters template value = before ++ value ++ after := by
  obtain ⟨os, hscan⟩ := exists_scan delimiters.1.toList delimiters.2.toList [] template.toList
  have hfind := find?_of_scan hscan
  refine ⟨os, hscan, fun ps hps => hps.unique hscan, hfind, ?_, fun hnone value => ?_, fun m hm => ?_⟩
  · simp [hfind]
  · rw [renderFirst, hnone]
  · obtain ⟨o, hbound, rfl⟩ := Option.map_eq_some_iff.1 (hfind ▸ hm)
    have hat : o.At delimiters.1.toList delimiters.2.toList template.toList :=
      hscan.at (List.mem_of_find?_eq_some hbound)
    have hbinds := binds_marker hat (by simpa using List.find?_some hbound)
    refine ⟨hbinds.isValid_start, hbinds.isValid_stop, _, _, _, hbinds, fun value =>
      ⟨hbinds.render_eq value, ?_⟩⟩
    rw [renderFirst, hm]
    exact hbinds.render_eq value

/-- Delimiters `||` overlap themselves: the text between them is never empty, so the third bar of the front
belongs to the key. -/
example : find? ("||", "||") "||| a ||| b ||" = some ⟨"| a", 0, 8⟩ := by decide

end Marker

end ViewBinding

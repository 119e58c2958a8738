import ViewBinding.Diagnostic
import ViewBinding.Proofs.Json.ReadingBack
import ViewBinding.Proofs.Table.Ordered

/-!
# Options and diagnostics in JSON

Options and diagnostics are written as objects, one member for each field.  Whoever writes them may
put the members in any order; read back, they are what they were.  Options of which only some fields
are written have the defaults for the others.

* `Options.read_of_members` — some members of options, read.
* `Options.WrittenAs.fromText`, `Diagnostic.WrittenAs.read` — the whole of options and diagnostics.
* `options_and_diagnostics_survive` — both, with the checks.
-/

namespace ViewBinding

open Json (Value Fault Reads Fills)

/-- A value under a key that may be among those given. -/
def given {α : Type} (keys : List String) (key : String) (a : α) : Option α :=
  if key ∈ keys then some a else none

@[simp] theorem given_of_mem {α : Type} {keys : List String} {key : String} (h : key ∈ keys) (a : α) :
    given keys key a = some a := if_pos h

@[simp] theorem given_of_not_mem {α : Type} {keys : List String} {key : String} (h : key ∉ keys)
    (a : α) : given keys key a = none := if_neg h

@[simp] theorem given_cons_of_ne {α : Type} {other key : String} (h : key ≠ other)
    (keys : List String) (a : α) : given (other :: keys) key a = given keys key a := by
  simp [given, h]

/-! ## Texts or null -/

theorem reads_optionalText (o : Option String) :
    Reads (Json.optional Json.text) (optionalText o).chars o := by
  cases o with
  | none => exact Json.reads_optional_null _
  | some s =>
    rw [optionalText, Value.chars, Json.stringChars]
    exact Json.reads_optional_some rfl (by decide) (Json.reads_text s)

/-! ## Wrappers -/

namespace Wrapper

/-- The members of a wrapper, those that `Wrapper.toValue` writes. -/
def members (w : Wrapper) : List (String × Value) :=
  [("tag", .string w.tag), ("class", optionalText w.cls)]

theorem nodup_members (w : Wrapper) : (w.members.map Prod.fst).Nodup :=
  (by decide : ["tag", "class"].Nodup)

/-- Whether a value is a JSON form of a wrapper: its `members`, in any order. -/
def WrittenAs (w : Wrapper) (v : Value) : Prop :=
  ∃ ms : List (String × Value), ms.Perm w.members ∧ v = .object ms

theorem writtenAs_toValue (w : Wrapper) : w.WrittenAs w.toValue :=
  ⟨_, Table.perm_ofList w.nodup_members, rfl⟩

/-- The draft of a wrapper after the members of some keys (`given`). -/
def draft (w : Wrapper) (keys : List String) : Draft where
  tag := given keys "tag" w.tag
  cls := given keys "class" w.cls

theorem fills (w : Wrapper) : ∀ x ∈ w.members, Fills shape.slots w.draft x.1 x.2 := by
  simp only [members, List.forall_mem_cons]
  refine ⟨?_, ?_, by simp⟩
  · exact .of rfl (fun keys h => given_of_not_mem h _) (fun keys => by simp [draft])
      (Json.reads_text w.tag)
  · exact .of rfl (fun keys h => given_of_not_mem h _) (fun keys => by simp [draft])
      (reads_optionalText w.cls)

/-- A wrapper that is written is read back by its `shape`. -/
theorem WrittenAs.reads {w : Wrapper} {v : Value} (h : w.WrittenAs v) :
    Reads (Json.record shape) v.chars w := by
  obtain ⟨ms, hperm, rfl⟩ := h
  refine Json.reads_record_of_perm hperm rfl w.fills w.nodup_members fun keys hkeys => ?_
  have hmem : ∀ key ∈ w.members.map Prod.fst, key ∈ keys := fun key h => (hkeys key).2 h
  simp only [members, List.map_cons, List.forall_mem_cons] at hmem
  simp [shape, draft, hmem, Json.required, bind, Except.bind]

end Wrapper

/-! ## Options -/

namespace Options

/-- The members of options; `wrapper` is the one that tells of the wrapper. -/
def members (o : Options) (wrapper : Value) : List (String × Value) :=
  [("directivePrefix", .string o.directivePrefix),
   ("modifierSeparator", .string o.modifierSeparator.toString),
   ("delimiters", .array [.string o.delimiters.1, .string o.delimiters.2]),
   ("markupWrapper", wrapper),
   ("inputEvent", .string o.inputEvent)]

theorem nodup_members (o : Options) (wrapper : Value) : ((o.members wrapper).map Prod.fst).Nodup :=
  (by decide :
    ["directivePrefix", "modifierSeparator", "delimiters", "markupWrapper", "inputEvent"].Nodup)

/-- Whether a value tells of the wrapper of options: `null` if there is none. -/
def WritesWrapper (o : Options) (v : Value) : Prop :=
  match o.markupWrapper with
  | none => v = .null
  | some w => w.WrittenAs v

/-- Whether a value is a JSON form of options: their `members`, in any order. -/
def WrittenAs (o : Options) (v : Value) : Prop :=
  ∃ (wrapper : Value) (ms : List (String × Value)),
    o.WritesWrapper wrapper ∧ ms.Perm (o.members wrapper) ∧ v = .object ms

theorem writtenAs_toValue (o : Options) : o.WrittenAs o.toValue := by
  refine ⟨_, _, ?_, Table.perm_ofList (o.nodup_members _), rfl⟩
  unfold WritesWrapper
  cases o.markupWrapper with
  | none => rfl
  | some w => exact w.writtenAs_toValue

theorem WritesWrapper.reads {o : Options} {v : Value} (h : o.WritesWrapper v) :
    Reads (Json.optional (Json.record Wrapper.shape)) v.chars o.markupWrapper := by
  unfold WritesWrapper at h
  split at h
  · next hw =>
    rw [h, hw]
    exact Json.reads_optional_null _
  · next w hw =>
    rw [hw]
    have hread := h.reads
    obtain ⟨ms, -, rfl⟩ := h
    obtain ⟨cs, hchars⟩ : ∃ cs, (Value.object ms).chars = '\x7b' :: cs := by
      cases ms with
      | nil => exact ⟨_, rfl⟩
      | cons x ms => exact ⟨_, rfl⟩
    rw [hchars] at hread ⊢
    exact Json.reads_optional_some rfl (by decide) hread

/-- The draft of options after the members of some keys (`given`). -/
def draft (o : Options) (keys : List String) : Draft where
  directivePrefix := given keys "directivePrefix" o.directivePrefix
  modifierSeparator := given keys "modifierSeparator" o.modifierSeparator
  delimiters := given keys "delimiters" o.delimiters
  markupWrapper := given keys "markupWrapper" o.markupWrapper
  inputEvent := given keys "inputEvent" o.inputEvent

theorem fills (o : Options) {wrapper : Value} (h : o.WritesWrapper wrapper) :
    ∀ x ∈ o.members wrapper, Fills shape.slots o.draft x.1 x.2 := by
  have hnone : ∀ {α : Type} (key : String) (a : α) (keys : List String), key ∉ keys →
      given keys key a = none := fun key a keys h => given_of_not_mem h a
  simp only [members, List.forall_mem_cons]
  refine ⟨?_, ?_, ?_, ?_, ?_, by simp⟩
  · exact .of rfl (hnone _ _) (fun keys => by simp [draft]) (Json.reads_text o.directivePrefix)
  · exact .of rfl (hnone _ _) (fun keys => by simp [draft])
      (Json.reads_character o.modifierSeparator)
  · exact .of rfl (hnone _ _) (fun keys => by simp [draft])
      (Json.reads_pair o.delimiters.1 o.delimiters.2)
  · exact .of rfl (hnone _ _) (fun keys => by simp [draft]) h.reads
  · exact .of rfl (hnone _ _) (fun keys => by simp [draft]) (Json.reads_text o.inputEvent)

/-- Some members of options, in any order, are read: what is not among them has its default
(`Options.Draft.options`). -/
theorem read_of_members (o : Options) {wrapper : Value} (h : o.WritesWrapper wrapper)
    {ms : List (String × Value)} (hsub : ms ⊆ o.members wrapper) (hnodup : (ms.map Prod.fst).Nodup) :
    Options.read (Value.object ms).text = .ok (o.draft (ms.map Prod.fst).reverse).options := by
  have hreads : Reads (Json.record shape) (Value.object ms).chars
      (o.draft (ms.map Prod.fst).reverse).options :=
    Json.reads_record rfl (fun x hx => o.fills h x (hsub hx)) hnodup rfl
  exact hreads.readWith

/-- Options that are written (`WrittenAs`) are read back. -/
theorem WrittenAs.read {o : Options} {v : Value} (h : o.WrittenAs v) :
    Options.read v.text = .ok o := by
  obtain ⟨wrapper, ms, hwrapper, hperm, rfl⟩ := h
  have hkeys := hperm.map Prod.fst
  have hmem : ∀ key ∈ (o.members wrapper).map Prod.fst, key ∈ (ms.map Prod.fst).reverse :=
    fun key h => List.mem_reverse.2 (hkeys.mem_iff.2 h)
  rw [o.read_of_members hwrapper hperm.subset (hkeys.nodup_iff.2 (o.nodup_members wrapper))]
  -- nothing is left to the defaults
  simp only [members, List.map_cons, List.forall_mem_cons] at hmem
  simp [draft, Draft.options, hmem]

/-- Options are accepted by `validate` if they have no flaw, and refused for their first flaw. -/
theorem validate_cases (o : Options) :
    o.validate = .ok () ∨ ∃ flaw, o.flaw? = some flaw ∧ o.validate = .error (.invalidOptions flaw) := by
  unfold validate
  split
  · next flaw hflaw => exact Or.inr ⟨flaw, hflaw, rfl⟩
  · exact Or.inl rfl

/-- Reading valid options is reading options (`Options.read`) and checking them (`validate`). -/
theorem fromText_of_read {o : Options} {text : String} (h : Options.read text = .ok o) :
    fromText text = o.validate.map fun _ => o := by
  rw [fromText, h]
  rfl

theorem validate_of_fromText {o : Options} {text : String} (h : fromText text = .ok o) :
    o.validate = .ok () := by
  cases hread : Options.read text with
  | error fault =>
    rw [fromText, hread] at h
    exact absurd h nofun
  | ok o' =>
    rw [fromText_of_read hread] at h
    rcases o'.validate_cases with hvalid | ⟨flaw, -, hflaw⟩
    · rw [hvalid] at h
      obtain rfl : o' = o := by simpa [Except.map] using h
      exact hvalid
    · rw [hflaw] at h
      exact absurd h nofun

end Options

/-! ## Diagnostics -/

namespace Diagnostic

/-- The members of a diagnostic. -/
def members (d : Diagnostic) : List (String × Value) :=
  [("code", .string d.code), ("message", .string d.message), ("key", optionalText d.key),
   ("directive", optionalText d.directive)]

theorem nodup_members (d : Diagnostic) : (d.members.map Prod.fst).Nodup :=
  (by decide : ["code", "message", "key", "directive"].Nodup)

/-- Whether a value is a JSON form of a diagnostic: its `members`, in any order. -/
def WrittenAs (d : Diagnostic) (v : Value) : Prop :=
  ∃ ms : List (String × Value), ms.Perm d.members ∧ v = .object ms

theorem writtenAs_toValue (d : Diagnostic) : d.WrittenAs d.toValue :=
  ⟨_, Table.perm_ofList d.nodup_members, rfl⟩

/-- The draft of a diagnostic after the members of some keys (`given`). -/
def draft (d : Diagnostic) (keys : List String) : Draft where
  code := given keys "code" d.code
  message := given keys "message" d.message
  key := given keys "key" d.key
  directive := given keys "directive" d.directive

theorem fills (d : Diagnostic) : ∀ x ∈ d.members, Fills shape.slots d.draft x.1 x.2 := by
  simp only [members, List.forall_mem_cons]
  refine ⟨?_, ?_, ?_, ?_, by simp⟩
  · exact .of rfl (fun keys h => given_of_not_mem h _) (fun keys => by simp [draft])
      (Json.reads_text d.code)
  · exact .of rfl (fun keys h => given_of_not_mem h _) (fun keys => by simp [draft])
      (Json.reads_text d.message)
  · exact .of rfl (fun keys h => given_of_not_mem h _) (fun keys => by simp [draft])
      (reads_optionalText d.key)
  · exact .of rfl (fun keys h => given_of_not_mem h _) (fun keys => by simp [draft])
      (reads_optionalText d.directive)

/-- A diagnostic that is written (`WrittenAs`) is read back. -/
theorem WrittenAs.read {d : Diagnostic} {v : Value} (h : d.WrittenAs v) :
    Diagnostic.read v.text = .ok d := by
  obtain ⟨ms, hperm, rfl⟩ := h
  have hreads : Reads (Json.record shape) (Value.object ms).chars d := by
    refine Json.reads_record_of_perm hperm rfl d.fills d.nodup_members fun keys hkeys => ?_
    have hmem : ∀ key ∈ d.members.map Prod.fst, key ∈ keys := fun key h => (hkeys key).2 h
    simp only [members, List.map_cons, List.forall_mem_cons] at hmem
    simp [shape, draft, hmem, Json.required, bind, Except.bind]
  exact hreads.readWith

end Diagnostic

/-! ## Both -/

/-- **Options and diagnostics survive their JSON form.**  Written with their members in any order, as
`toValue` writes them or as they are declared, options are read back as they are if they are valid, and
are refused for their flaw if they have one; diagnostics are always read back as they are.  Whatever
options are read from whatever text, they are valid. -/
theorem options_and_diagnostics_survive :
    (∀ o : Options, o.WrittenAs o.toValue) ∧
      (∀ (o : Options) (v : Value), o.WrittenAs v →
        (o.validate = .ok () → Options.fromText v.text = .ok o) ∧
          (o.validate ≠ .ok () → ∃ flaw, o.flaw? = some flaw ∧
            Options.fromText v.text = .error (.invalidOptions flaw))) ∧
      (∀ d : Diagnostic, d.WrittenAs d.toValue) ∧
      (∀ (d : Diagnostic) (v : Value), d.WrittenAs v → Diagnostic.read v.text = .ok d) ∧
      (∀ (text : String) (o : Options), Options.fromText text = .ok o → o.validate = .ok ()) := by
  refine ⟨Options.writtenAs_toValue, fun o v hv => ⟨fun hvalid => ?_, fun hinvalid => ?_⟩,
    Diagnostic.writtenAs_toValue, fun d v hv => hv.read, fun text o => Options.validate_of_fromText⟩
  · rw [Options.fromText_of_read hv.read, hvalid]
    rfl
  · rcases o.validate_cases with hvalid | ⟨flaw, hflaw, herror⟩
    · exact absurd hvalid hinvalid
    · refine ⟨flaw, hflaw, ?_⟩
      rw [Options.fromText_of_read hv.read, herror]
      rfl

/-- Options with quotes, escapes and control characters in them, and a wrapper without a class. -/
def extremeOptions : Options where
  directivePrefix := "\"\\/\n"
  modifierSeparator := '\x1f'
  delimiters := ("é\t", "😀")
  markupWrapper := some ⟨"null", none⟩
  inputEvent := " "

/-- The `extremeOptions` are read back from their declared form; without a tag they are refused. -/
theorem extreme_options_survive :
    let untagged : Options := { extremeOptions with markupWrapper := some ⟨"", none⟩ }
    let wrapper : Value := .object [("tag", .string "null"), ("class", .null)]
    let d := Diagnostic.missingEvent "v-on:" "\x00"
    Options.fromText (Value.object (extremeOptions.members wrapper)).text = .ok extremeOptions ∧
      (∃ flaw, Options.fromText untagged.toValue.text = .error (.invalidOptions flaw)) ∧
      Diagnostic.read d.toValue.text = .ok d := by
  intro untagged wrapper d
  obtain ⟨hoptions, hread, hdiagnostics, hreadDiagnostic, -⟩ := options_and_diagnostics_survive
  have hdeclared : extremeOptions.WrittenAs (.object (extremeOptions.members wrapper)) :=
    ⟨wrapper, _, ⟨_, .refl _, rfl⟩, .refl _, rfl⟩
  have hinvalid : untagged.validate = .error (.invalidOptions .wrapperTag) := rfl
  obtain ⟨flaw, -, hrefused⟩ := (hread untagged _ (hoptions untagged)).2 (by simp [hinvalid])
  exact ⟨(hread extremeOptions _ hdeclared).1 rfl, ⟨flaw, hrefused⟩, hreadDiagnostic d _ (hdiagnostics d)⟩

end ViewBinding

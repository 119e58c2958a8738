import ViewBinding.Proofs.Session.Induction

/-!
# How deep clients may make each other run

The bound on how deep clients may make each other run decides whether there is an answer, and never
which: an answer under one bound is the answer under every greater one (`invoke_mono`).
So what makes clients run comes to one result, if to any (`Ends`, `Ends.unique`).
-/

namespace ViewBinding

open Json (Value)

/-- Whether a caller gives every answer that another one gives: where that answers `none`, it may answer
more. -/
def Caller.Below (call deeper : Caller) : Prop :=
  ∀ scope code seen s s', call scope code seen s = some s' → deeper scope code seen s = some s'

namespace Caller.Below

variable {call deeper : Caller} {s s' : Session}

theorem tell (h : call.Below deeper) {observer : Observer Client} {value : Value}
    (ht : Session.tell call observer value s = some s') :
    Session.tell deeper observer value s = some s' := by
  cases observer with
  | client code => exact h none code value s s' ht
  | retained code => exact h none code value s s' ht
  | _ => exact ht

theorem deliver (h : call.Below deeper) {number : Nat} {store : StoreId} {key : String}
    {value : Value} {observers : List (Nat × Observer Client)}
    (hd : Session.deliver call number store key value observers s = some s') :
    Session.deliver deeper number store key value observers s = some s' := by
  induction observers generalizing s with
  | nil => exact hd
  | cons entry rest ih =>
    rw [Session.deliver] at hd ⊢
    split at hd
    · next hholds =>
      rw [if_pos hholds]
      split at hd
      · exact absurd hd (by simp)
      · next s₁ hs₁ =>
        rw [h.tell hs₁]
        exact ih hd
    · next hholds => rwa [if_neg hholds]

theorem holding {nodes : List NodeId} {stores : List StoreId} {f g : Session → Option Session}
    (h : ∀ s s', f s = some s' → g s = some s') (hf : s.holding nodes stores f = some s') :
    s.holding nodes stores g = some s' := by
  obtain ⟨after, hafter, heq⟩ := Option.map_eq_some_iff.1 hf
  exact Option.map_eq_some_iff.2 ⟨after, h _ after hafter, heq⟩

theorem set (h : call.Below deeper) {store : StoreId} {key : String} {value : Value}
    (hs : Session.set call store key value s = some s') :
    Session.set deeper store key value s = some s' := by
  unfold Session.set at hs ⊢
  split at hs
  · exact hs
  · next st _ =>
    split at hs
    · next hholds => rwa [if_pos hholds]
    · next hholds =>
      rw [if_neg hholds]
      exact holding (fun _ _ hd => h.deliver hd) hs

theorem hear (h : call.Below deeper) {event : String} {listener : Listener Client}
    (hh : Session.hear call event listener s = some s') :
    Session.hear deeper event listener s = some s' := by
  cases listener with
  | input node store key =>
    simp only [Session.hear] at hh ⊢
    split at hh
    · exact hh
    · exact h.set hh
  | method store code => exact h (some store) code _ s s' hh
  | client code => exact h none code _ s s' hh

theorem hearAll (h : call.Below deeper) {number : Nat} {node : NodeId} {event : String}
    {listeners : List (Registered Client)}
    (hh : Session.hearAll call number node event listeners s = some s') :
    Session.hearAll deeper number node event listeners s = some s' := by
  induction listeners generalizing s with
  | nil => exact hh
  | cons r rest ih =>
    rw [Session.hearAll] at hh ⊢
    split at hh
    · exact absurd hh (by simp)
    · next s₁ hs₁ =>
      rw [h.hear hs₁]
      exact ih hh

theorem fire (h : call.Below deeper) {node event : String} {reply : Reply}
    (hf : s.fire call node event = some (reply, s')) :
    s.fire deeper node event = some (reply, s') := by
  unfold Session.fire at hf ⊢
  split at hf
  · exact hf
  · obtain ⟨after, hafter, heq⟩ := Option.map_eq_some_iff.1 hf
    exact Option.map_eq_some_iff.2 ⟨after, holding (fun _ _ hh => h.hearAll hh) hafter, heq⟩

/-- One command. -/
theorem perform (h : call.Below deeper) {scope : Option StoreId} {c : Command Client}
    {reply : Reply} (hp : s.perform call scope c = some (reply, s')) :
    s.perform deeper scope c = some (reply, s') := by
  cases c with
  | set key value =>
    obtain ⟨after, hafter, heq⟩ := Option.map_eq_some_iff.1 hp
    exact Option.map_eq_some_iff.2 ⟨after, h.set hafter, heq⟩
  | fire node event => exact h.fire hp
  | call name event =>
    simp only [Session.perform] at hp ⊢
    split at hp
    · exact hp
    · obtain ⟨after, hafter, heq⟩ := Option.map_eq_some_iff.1 hp
      exact Option.map_eq_some_iff.2 ⟨after, holding (fun _ _ hc => h _ _ _ _ _ hc) hafter, heq⟩
  | _ => exact hp

/-- An action. -/
theorem act (h : call.Below deeper) {scope : Option StoreId} : ∀ (a : Action) {s s' : Session}
    {reply : Reply}, Session.act call scope a s = some (reply, s') →
      Session.act deeper scope a s = some (reply, s')
  | .done _, _, _, _, ha => ha
  | .ask c next, s, s', reply, ha => by
    rw [Session.act] at ha ⊢
    split at ha
    · exact absurd ha (by simp)
    · next r s₁ hs₁ =>
      rw [h.perform hs₁]
      exact h.act (next r) ha

end Caller.Below

namespace Session

/-- **A greater bound changes no answer** that `invoke` gives. -/
theorem invoke_mono {depth deeper : Nat} (h : depth ≤ deeper) :
    (invoke depth).Below (invoke deeper) := by
  induction depth generalizing deeper with
  | zero =>
    intro _ _ _ _ _ hs
    exact absurd hs (by simp [invoke])
  | succ depth ih =>
    obtain ⟨deeper, rfl⟩ : ∃ d, deeper = d + 1 := ⟨deeper - 1, by omega⟩
    intro scope code seen s s' hs
    obtain ⟨result, hresult, heq⟩ := Option.map_eq_some_iff.1 hs
    exact Option.map_eq_some_iff.2
      ⟨result, (ih (Nat.le_of_succ_le_succ h)).act (code seen) hresult, heq⟩

/-! ## Coming to an end -/

/-- Whether what makes clients run comes to a result as soon as they may make each other run deep enough
(`invoke`). -/
def Ends {α : Type} (f : Nat → Option α) (a : α) : Prop :=
  ∃ bound, ∀ depth ≥ bound, f depth = some a

namespace Ends

variable {α β : Type} {f : Nat → Option α} {a : α}

theorem of_forall (h : ∀ depth, f depth = some a) : Ends f a :=
  ⟨0, fun depth _ => h depth⟩

/-- One thing after the other. -/
theorem andThen (hf : Ends f a) {g f' : Nat → Option β} {b : β} (hg : Ends g b)
    (h : ∀ depth, f depth = some a → f' depth = g depth) : Ends f' b := by
  obtain ⟨m, hm⟩ := hf
  obtain ⟨n, hn⟩ := hg
  refine ⟨max m n, fun depth hdepth => ?_⟩
  rw [h depth (hm depth (Nat.le_trans (Nat.le_max_left m n) hdepth)),
    hn depth (Nat.le_trans (Nat.le_max_right m n) hdepth)]

theorem of_eq (hf : Ends f a) {f' : Nat → Option β} {b : β}
    (h : ∀ depth, f depth = some a → f' depth = some b) : Ends f' b :=
  hf.andThen (.of_forall fun _ => rfl) h

/-- The code of a client comes to an end if its action does. -/
theorem invoke {scope : Option StoreId} {code : Client} {seen : Value} {s s' : Session}
    {reply : Reply}
    (h : Ends (fun depth => act (Session.invoke depth) scope (code seen) s) (reply, s')) :
    Ends (fun depth => Session.invoke depth scope code seen s) s' := by
  obtain ⟨bound, hbound⟩ := h
  refine ⟨bound + 1, fun depth hdepth => ?_⟩
  obtain ⟨deeper, rfl⟩ : ∃ deeper, depth = deeper + 1 :=
    ⟨depth - 1, (Nat.sub_add_cancel (Nat.le_trans (Nat.le_add_left 1 bound) hdepth)).symm⟩
  have hact : act (Session.invoke deeper) scope (code seen) s = some (reply, s') :=
    hbound deeper (Nat.le_of_succ_le_succ hdepth)
  show (act (Session.invoke deeper) scope (code seen) s).map Prod.snd = some s'
  rw [hact]
  rfl

/-- A `set` that has an answer under some bound comes to it. -/
theorem set {store : StoreId} {key : String} {value : Value} {depth : Nat} {s s' : Session}
    (h : s.set (Session.invoke depth) store key value = some s') :
    Ends (fun depth => s.set (Session.invoke depth) store key value) s' :=
  ⟨depth, fun _ hdeeper => (invoke_mono hdeeper).set h⟩

/-- What comes to an end has one result. -/
theorem unique (h : Ends f a) {b : α} (h' : Ends f b) : a = b := by
  obtain ⟨m, hm⟩ := h
  obtain ⟨n, hn⟩ := h'
  exact Option.some.inj ((hm (max m n) (Nat.le_max_left m n)).symm.trans
    (hn (max m n) (Nat.le_max_right m n)))

end Ends

end Session

end ViewBinding

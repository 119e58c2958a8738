import ViewBinding.Proofs.Compile.Influence
import ViewBinding.Proofs.Delivery.Snapshot

/-!
# In the order of the document

A pass subscribes as it goes, so the observers of a key stand in the order of their nodes in the
document, and a value reaches them in that order.

* `sublist_linksAt` — the plan of a pass follows the nodes, and on an element the attributes.
* `Session.Foreseen.retained` — each new observer has one guard, at the node where it shows its value.
* `subscribes_in_document_order` — what a pass leaves of the observers of every key, what it adds
  behind them, and whom a later `set` tells in which order.
* `replaced_reader_is_gone` — an observer that was there before need not be there any more, because
  the node that holds it is taken out by the pass.
-/

namespace ViewBinding

open Json (Value)

variable {κ : Type}

/-! ## The plan follows the document -/

/-- Numbering leaves the links of a plan without gaps as they are. -/
theorem map_snd_numbered (k : Nat) (links : List (Link κ)) :
    (numbered k (links.map some)).map Prod.snd = links := by
  induction links generalizing k with
  | nil => rfl
  | cons l rest ih => rw [List.map_cons, numbered, List.map_cons, ih]

namespace Compiler

variable (c : Compiler κ)

/-- What is to be subscribed at a node: the marker of a text (`markerLink?`), or the directives of an
element in the order of its attributes. -/
def linksAt (x : NodeId × Node κ) : List (Link κ) :=
  (c.markerLink? x.1 x.2).toList ++ (x.2.directives c.options).filterMap (c.link? x.1)

/-- What is subscribed for a node is shown at that node. -/
theorem target?_of_mem_linksAt {x : NodeId × Node κ} {l : Link κ} (hl : l ∈ c.linksAt x) :
    l.node = x.1 ∧ l.observer.target? = some x.1 := by
  rcases List.mem_append.1 hl with hl | hl
  · obtain ⟨template, -, hmarker⟩ := Option.bind_eq_some_iff.1 (Option.mem_toList.1 hl)
    obtain ⟨marker, -, rfl⟩ := Option.map_eq_some_iff.1 hmarker
    exact ⟨rfl, rfl⟩
  · obtain ⟨d, -, hlink⟩ := List.mem_filterMap.1 hl
    unfold link? at hlink
    split at hlink
    · rw [← Option.some.inj hlink]
      exact ⟨rfl, rfl⟩
    · rw [← Option.some.inj hlink]
      exact ⟨rfl, rfl⟩
    · exact absurd hlink (by simp)

/-- A stop subscribes what is to be subscribed at its node (`linksAt`), or nothing that lasts. -/
theorem numbered_stopAt_sublist (k : Nat) (id : NodeId) (n : Node κ) :
    ((numbered k (c.plan [c.stopAt id n])).map Prod.snd).Sublist (c.linksAt (id, n)) := by
  rw [plan, List.flatMap_singleton]
  split
  · rw [numbered_gaps]
    exact List.nil_sublist _
  · next hstays =>
    have hstays : (n.directives c.options).any c.replaces = false := by
      rw [← c.any_upToReplacing]
      exact Bool.eq_false_iff.2 hstays
    rw [map_snd_numbered, links, stopAt, upToReplacing_eq_self hstays]
    exact List.Sublist.refl _

mutual

theorem numbered_itinerary_sublist : ∀ (t : View κ) (k : Nat),
    ((numbered k (c.plan (c.itinerary t))).map Prod.snd).Sublist (t.nodes.flatMap c.linksAt)
  | .node id n row, k => by
    rw [itinerary, ← List.singleton_append, plan_append, numbered_append, List.map_append, Tree.nodes,
      List.flatMap_cons]
    refine (c.numbered_stopAt_sublist k id n).append ?_
    split
    · exact sublist_linksAt row _
    · exact List.nil_sublist _

/-- **The plan of a pass follows the document**: node by node in document order, each with its `linksAt`.
-/
theorem sublist_linksAt : ∀ (row : Forest (Node κ)) (k : Nat),
    ((numbered k (c.planRow row)).map Prod.snd).Sublist ((Forest.nodes row).flatMap c.linksAt)
  | [], _ => List.nil_sublist _
  | t :: ts, k => by
    rw [planRow, itineraryRow, plan_append, numbered_append, List.map_append, Forest.nodes,
      List.flatMap_append]
    exact (numbered_itinerary_sublist t k).append (sublist_linksAt ts _)

end

/-- A link of a plan is for a node in the row, and shown there. -/
theorem exists_node_of_mem_plan {row : Forest (Node κ)} {k : Nat} {x : Nat × Link κ}
    (hx : x ∈ numbered k (c.planRow row)) :
    x.2.node ∈ Forest.ids row ∧ x.2.observer.target? = some x.2.node := by
  obtain ⟨y, hy, hl⟩ :=
    List.mem_flatMap.1 ((c.sublist_linksAt row k).subset (List.mem_map_of_mem hx))
  obtain ⟨hnode, htarget⟩ := c.target?_of_mem_linksAt hl
  rw [hnode]
  exact ⟨Forest.mem_ids.2 ⟨y, hy, rfl⟩, htarget⟩

end Compiler

namespace Session

open Happening

/-! ## Who holds the new observers -/

theorem mem_allGuards_of_node? {s : Session} {i : NodeId} {n : Node Client} {g : Guard}
    (hn : s.world.node? i = some n) (hg : g ∈ n.guards) : g ∈ s.allGuards := by
  refine List.mem_append_left _ ?_
  simp only [Ledger.guards, View.ledger, List.flatMap_map, List.mem_flatMap]
  exact ⟨(i, n), Forest.mem_nodes_of_val? hn, hg⟩

/-- Each new observer has one guard, at the node where it shows its value (`retain_subscription`). -/
theorem Foreseen.retained {s s₁ : Session} {c : Compiler Client} {t : View Client}
    {data : String → Option Value} {k : Nat} {report : Report}
    (h : s.Foreseen c t data k report s₁) (haccounted : s₁.Accounted) {x : Nat × Link Client}
    (hx : x ∈ numbered k (c.planRow t.children)) :
    x.2.observer.target? = some x.2.node ∧ s₁.allGuards.count (Link.guard c.store x) = 1 ∧
      ∃ n, s₁.world.node? x.2.node = some n ∧ Link.guard c.store x ∈ n.guards := by
  obtain ⟨hin, htarget⟩ := c.exists_node_of_mem_plan hx
  have hids : x.2.node ∈ t.ids := by
    obtain ⟨id, n, row⟩ := t
    rw [Tree.ids_node]
    exact List.mem_cons_of_mem _ hin
  obtain ⟨n, hn, hguards, -⟩ := h.nodes _ hids
  have hguard : Link.guard c.store x ∈ n.guards := by
    have hmem : Link.guard c.store x ∈ n.guards.filter (Guard.since c.store k) := by
      rw [hguards]
      exact List.mem_map_of_mem (List.mem_filter.2 ⟨hx, by simp⟩)
    exact (List.mem_filter.1 hmem).1
  have hunique : s₁.allGuards.Nodup := haccounted.world.owned.unique
  exact ⟨htarget, List.count_eq_one_of_mem hunique (mem_allGuards_of_node? hn hguard), n, hn, hguard⟩

/-! ## A later `set` -/

/-- A later `set` of a key tells what is left of its observers in their order, and then any that came
later. -/
theorem set_tells_later {model : Value} {methods : List (String × Client)} {s₁ s₂ s₃ : Session}
    {store : StoreId} {st₁ st₂ : Store Client} {key : String} {value : Value} {depth : Nat}
    (hreachable : Moves (start model methods) s₁) (hst₁ : s₁.world.stores[store]? = some st₁)
    {old fresh : List (Nat × Observer Client)} (hobservers : st₁.observersOf key = old ++ fresh)
    (hlater : Moves s₁ s₂) (hst₂ : s₂.world.stores[store]? = some st₂)
    (hnew : st₂.holds key value = false)
    (hset : s₂.set (invoke depth) store key value = some s₃) :
    ∃ new former added later, s₃.history = new ++ s₂.history ∧
      st₂.observersOf key = former ++ added ++ later ∧ former.Sublist old ∧ added.Sublist fresh ∧
      (∀ entry ∈ later, st₁.nextId ≤ entry.1) ∧ (toldBy s₂.deliveries new).Pairwise (· < ·) ∧
      ((∀ number w, .wrote number store key w ∈ new → number = s₂.deliveries) →
        toldBy s₂.deliveries new = (former ++ added ++ later).map Prod.fst) := by
  obtain ⟨st, hst, hbecomes⟩ := hlater.becomes hst₁
  obtain rfl : st₂ = st := Option.some.inj (hst₂.symm.trans hst)
  obtain ⟨kept, later, hkept, hsub, hyoung⟩ := hbecomes.observers key
  rw [hobservers, List.sublist_append_iff] at hsub
  obtain ⟨former, added, rfl, hformer, hadded⟩ := hsub
  obtain ⟨new, hhistory, hdelivered⟩ := set_delivered hst₂ hnew hset
  have hsound : st₂.Sound := (Moves.sound (hreachable.trans hlater)).store hst₂
  refine ⟨new, former, added, later, hhistory, hkept, hformer, hadded, hyoung,
    hdelivered.ordered hsound, fun hnone => ?_⟩
  rw [hdelivered.whole hnone, hkept]

/-! ## The command -/

/-- **Observers stand in the order of the document.**  Take any session that can be reached and a view
the root of which is an element.  Compiling the view with valid options and builtin strategies
succeeds.  Afterwards the observers of every key are those that it had before, in their order, without
those whose guards were held by what the pass takes out of the view, and behind them those that the
pass added, in the order of their nodes in the document and on one element in that of its attributes.
What was taken out is not bound any more.  Each new observer shows its value at its node, and has one
guard, which is held there.  A later `set` during which the key is not written again tells the
observers in this order, each once: the former ones that are left, then those of the pass that are
left, then any that came later. -/
theorem subscribes_in_document_order {model : Value} {methods : List (String × Client)} {s : Session}
    (hreachable : Moves (start model methods) s) {name : String} {t : View Client} {options : Options}
    {registry : Registry} {st : Store Client} (ht : s.view? name = some t)
    (hroot : t.val.isElement = true) (hvalid : options.flaw? = none) (hbuiltin : registry.Builtin)
    (hst : s.world.stores[s.store]? = some st) (call : Caller) (scope : Option StoreId) :
    let c := s.compiler options registry
    let out := c.takenOutRow st.get? t.children
    ∃ report s₁ st₁ links,
      s.perform call scope (.bind (.compile name options registry)) = some (.report report, s₁) ∧
      s₁.world.stores[s.store]? = some st₁ ∧
      links.Pairwise (fun x y => x.1 < y.1) ∧
      (links.map Prod.snd).Sublist ((Forest.nodes t.children).flatMap c.linksAt) ∧
      (∀ key, st₁.observersOf key =
        remaining (View.ledger out).guards s.store key (st.observersOf key) ++
          observersFor key links) ∧
      (∀ x ∈ Forest.nodes out, x ∈ Forest.nodes t.children ∧
        ∀ n, s₁.world.node? x.1 = some n → n.Unbound) ∧
      (∀ x ∈ links, x.2.observer.target? = some x.2.node ∧
        s₁.allGuards.count (Link.guard s.store x) = 1 ∧
        ∃ n, s₁.world.node? x.2.node = some n ∧ Link.guard s.store x ∈ n.guards) ∧
      ∀ {depth : Nat} {key : String} {value : Value} {s₂ s₃ : Session} {st₂ : Store Client},
        Moves s₁ s₂ → s₂.world.stores[s.store]? = some st₂ → st₂.holds key value = false →
        s₂.set (invoke depth) s.store key value = some s₃ →
        ∃ new former added later, s₃.history = new ++ s₂.history ∧
          st₂.observersOf key = former ++ added ++ later ∧
          former.Sublist (remaining (View.ledger out).guards s.store key (st.observersOf key)) ∧
          added.Sublist (observersFor key links) ∧ (∀ entry ∈ later, st₁.nextId ≤ entry.1) ∧
          (toldBy s₂.deliveries new).Pairwise (· < ·) ∧
          ((∀ number w, .wrote number s.store key w ∈ new → number = s₂.deliveries) →
            toldBy s₂.deliveries new = (former ++ added ++ later).map Prod.fst) := by
  intro c out
  have haccounted := hreachable.accounted
  have hdue := (hreachable.sound.store hst).due hst
  obtain ⟨report, s₁, hbind, hforeseen⟩ :=
    exists_foreseen haccounted ht hroot hvalid hbuiltin hdue ⟨st, hst, fun _ => rfl⟩
  have hstep : Step s s₁ := by
    have hbound := Step.bind s (.compile name options registry)
    rwa [hbind] at hbound
  obtain ⟨st₁, hst₁, -, hplanned⟩ := hforeseen.planned s.store st hst
  have hobservers : ∀ key, st₁.observersOf key =
      remaining (View.ledger out).guards s.store key (st.observersOf key) ++
        observersFor key (numbered st.nextId (c.planRow t.children)) := fun key =>
    (hplanned key).trans (congrArg _ (if_pos rfl))
  refine ⟨report, s₁, st₁, numbered st.nextId (c.planRow t.children), congrArg some hbind, hst₁,
    pairwise_numbered _ _, c.sublist_linksAt _ _, hobservers, fun x hx => ⟨?_, ?_⟩,
    fun x hx => hforeseen.retained (haccounted.step hstep) hx, ?_⟩
  · exact (c.takenOutRow_sublist st.get? t.children).subset hx
  · exact hforeseen.out x.1 (Forest.mem_ids.2 ⟨x, hx, rfl⟩)
  · intro depth key value s₂ s₃ st₂ hlater hst₂ hnew hset
    exact set_tells_later (hreachable.trans hstep.moves) hst₁ (hobservers key) hlater hst₂ hnew hset

/-- A client that observes a key, and a view with a text, a field and a marker for it, where another
text, below the first element, was bound before. -/
def reading : List Action :=
  [.command (.subscribe "mine" "name" fun _ => .done .nothing),
    .command (.handle (.build "root" (.element "div" []
      [.element "p" [⟨"v-text", "name"⟩] [.text "Hi \x7b\x7b name \x7d\x7d"],
        .element "input" [⟨"v-model", "name"⟩] [], .text "Hello \x7b\x7b name \x7d\x7d!"]))),
    .command (.handle (.find "text" "root" none 0)),
    .command (.bind (.text "text" ({} : Options).delimiters))]

/-- The client of `reading` comes first, and then the three nodes as they stand in the document. -/
theorem reading_in_document_order :
    let s := (start (.ofMembers [("name", .string "Ada")]) []).runs reading
    ∃ t report s₁ st₁, ∃ links : List (Nat × Link Client), s.view? "root" = some t ∧
      s.perform (invoke depth) none (.bind (.compile "root" {} .standard)) =
        some (.report report, s₁) ∧
      s₁.world.stores[0]? = some st₁ ∧ (st₁.observersOf "name").map Prod.fst = [0, 2, 3, 4] ∧
      (links.map Prod.snd).Sublist
        ((Forest.nodes t.children).flatMap (s.compiler {} .standard).linksAt) ∧
      ∀ x ∈ links, s₁.allGuards.count (Link.guard s.store x) = 1 := by
  intro s
  have hreachable : Moves _ s := moves_runs _ reading
  have helement : ((s.view? "root").map fun t => t.val.isElement) = some true := by
    decide +kernel
  have hstore : s.store = 0 := by
    decide +kernel
  have hthere : (s.world.stores[s.store]?).isSome = true := by
    decide +kernel
  obtain ⟨t, ht, hroot⟩ := Option.map_eq_some_iff.1 helement
  obtain ⟨st, hst⟩ := Option.isSome_iff_exists.1 hthere
  have hvalid : ({} : Options).flaw? = none := rfl
  obtain ⟨report, s₁, st₁, links, hcompile, hst₁, -, hlinks, -, -, hretained, -⟩ :=
    subscribes_in_document_order hreachable ht hroot hvalid Registry.builtin_standard hst
      (invoke depth) none
  have hids : ((s.perform (invoke depth) none (.bind (.compile "root" {} .standard))).bind fun r =>
      (r.2.world.stores[0]?).map fun st => (st.observersOf "name").map Prod.fst) =
        some [0, 2, 3, 4] := by
    decide +kernel
  rw [hstore] at hst₁
  rw [hcompile, Option.bind_some, hst₁, Option.map_some] at hids
  exact ⟨t, report, s₁, st₁, links, ht, hcompile, hst₁, Option.some.inj hids, hlinks,
    fun x hx => (hretained x hx).2.1⟩

/-- The observer of the text below the first element was there before the pass and is not there any
more, since the pass took out the text that holds it. -/
theorem replaced_reader_is_gone :
    let s := (start (.ofMembers [("name", .string "Ada")]) []).runs reading
    ∃ st r s₁ st₁, s.world.stores[0]? = some st ∧
      s.perform (invoke depth) none (.bind (.compile "root" {} .standard)) = some (r, s₁) ∧
      s₁.world.stores[0]? = some st₁ ∧
      ¬∃ added, st₁.observersOf "name" = st.observersOf "name" ++ added := by
  intro s
  have hbefore : (s.world.stores[0]?).map (fun st => (st.observersOf "name").map Prod.fst) =
      some [0, 1] := by
    decide +kernel
  have hafter : ((s.perform (invoke depth) none (.bind (.compile "root" {} .standard))).bind fun r =>
      (r.2.world.stores[0]?).map fun st => (st.observersOf "name").map Prod.fst) =
        some [0, 2, 3, 4] := by
    decide +kernel
  obtain ⟨st, hst, hids⟩ := Option.map_eq_some_iff.1 hbefore
  obtain ⟨⟨r, s₁⟩, hcompile, hafter⟩ := Option.bind_eq_some_iff.1 hafter
  obtain ⟨st₁, hst₁, hids₁⟩ := Option.map_eq_some_iff.1 hafter
  refine ⟨st, r, s₁, st₁, hst, hcompile, hst₁, ?_⟩
  rintro ⟨added, hadded⟩
  rw [hadded, List.map_append, hids] at hids₁
  exact absurd (List.cons.inj (List.cons.inj hids₁).2).1 (by decide)

end Session

end ViewBinding

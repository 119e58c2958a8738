import ViewBinding.Proofs.Session.Quiet

/-!
# The steps of a session

Whatever runs, a session changes in a few ways only, one for each family of commands, and one each for
an observer that shows a new value, for nodes that die and for what is noted in the history.  `Step`
lists them; none of them writes a value or tells an observer (`Step.quiet`), and none changes who is
being worked on (`Step.busyNodes_eq`).  The families of commands leave the history alone as well
(`course_handle`, `course_edit` and their like).
-/

namespace ViewBinding

open Json (Value)

namespace Session

/-- What a session comes to by a single change in which no value is written: one case for each family of
commands, and for what a delivery does besides. -/
inductive Step : Session → Session → Prop
  /-- A name was given or taken away. -/
  | handle (s : Session) (h : Handle) : Step s (s.handle h).2
  /-- A view was changed. -/
  | edit (s : Session) (e : Edit) : Step s (s.edit e).2
  /-- Subscriptions were ended. -/
  | finish (s : Session) (scope : Option StoreId) (e : Ending) : Step s (s.finish scope e).2
  /-- A view was bound. -/
  | bind (s : Session) (b : Bind) : Step s (s.bind b).2
  /-- A client subscribed. -/
  | subscribe (s : Session) (scope : Option StoreId) (name key : String) (code : Client) :
      Step s (s.subscribe scope name key code).2
  /-- A client was added to the listeners of a node. -/
  | listen (s : Session) (node event name : String) (code : Client) :
      Step s (s.listen node event name code).2
  /-- A client subscribed for as long as a node lives. -/
  | retain (s : Session) (scope : Option StoreId) (node key : String) (code : Client) :
      Step s (s.retain scope node key code).2
  /-- There is a new store. -/
  | newStore (s : Session) (value : Value) :
      Step s { s.changeStores (· ++ [Store.ofValue value]) with store := s.world.stores.length }
  /-- A node shows a new value. -/
  | refresh (s : Session) (observer : Observer Client) (value : Value) :
      Step s { s with world := s.world.refresh observer value }
  /-- The nodes died that nobody holds. -/
  | sweep (s : Session) : Step s s.sweep
  /-- Something was noted that belongs to no delivery of a value. -/
  | record (s : Session) (h : Happening) (hh : h.delivery? = none) : Step s (s.record h)
  /-- An event is about to be delivered. -/
  | begin (s : Session) (h : Nat → Happening) (hh : (h s.deliveries).delivery? = none) :
      Step s (s.begin h)

theorem Step.quiet {s s' : Session} (h : Step s s') : s.Quiet s' := by
  cases h with
  | handle h => exact s.quiet_handle h
  | edit e => exact s.quiet_edit e
  | finish scope e => exact s.quiet_finish scope e
  | bind b => exact s.quiet_bind b
  | subscribe scope name key code => exact s.quiet_subscribe scope name key code
  | listen node event name code => exact s.quiet_listen node event name code
  | retain scope node key code => exact s.quiet_retain scope node key code
  | newStore value => exact s.quiet_newStore value
  | refresh observer value => exact s.quiet_refresh observer value
  | sweep => exact s.quiet_sweep
  | record h hh => exact s.quiet_record hh
  | begin h hh => exact s.quiet_begin hh

/-! ## The course of a session -/

/-- Who is being worked on, how many deliveries there were, and what happened. -/
def course (s : Session) : List NodeId × List StoreId × Nat × List Happening :=
  (s.busyNodes, s.busyStores, s.deliveries, s.history)

theorem course_changeAt {s : Session} {name : String} {f : View Client → Reply × Session}
    (hf : ∀ t, (f t).2.course = s.course) : (s.changeAt name f).2.course = s.course :=
  changeAt_rule (p := fun s' => s'.course = s.course) rfl fun t _ => hf t

theorem course_handle (s : Session) (h : Handle) : (s.handle h).2.course = s.course := by
  obtain ⟨nodes, heq | ⟨m, heq⟩⟩ := s.handle_cases h <;> rw [heq] <;> rfl

theorem course_edit (s : Session) (e : Edit) : (s.edit e).2.course = s.course := by
  rw [edit_eq]
  rfl

theorem course_finish (s : Session) (scope : Option StoreId) (e : Ending) :
    (s.finish scope e).2.course = s.course := by
  cases e with
  | unsubscribe name =>
    simp only [Session.finish]
    split <;> rfl
  | take node name => exact course_changeAt fun t => rfl
  | release node => exact course_changeAt fun t => rfl
  | _ => rfl

theorem course_bind (s : Session) (b : Bind) : (s.bind b).2.course = s.course := by
  rw [bind_eq]
  rfl

theorem course_subscribe (s : Session) (scope : Option StoreId) (name key : String)
    (code : Client) : (s.subscribe scope name key code).2.course = s.course := by
  simp only [Session.subscribe]
  split <;> rfl

theorem course_listen (s : Session) (node event name : String) (code : Client) :
    (s.listen node event name code).2.course = s.course :=
  course_changeAt fun _ => rfl

theorem course_retain (s : Session) (scope : Option StoreId) (node key : String) (code : Client) :
    (s.retain scope node key code).2.course = s.course := by
  simp only [Session.retain]
  split <;> rfl

/-- No step changes who is being worked on. -/
theorem Step.busyNodes_eq {s s' : Session} (h : Step s s') : s'.busyNodes = s.busyNodes := by
  have hcourse : ∀ {s' : Session}, s'.course = s.course → s'.busyNodes = s.busyNodes :=
    fun heq => congrArg Prod.fst heq
  cases h with
  | handle h => exact hcourse (s.course_handle h)
  | edit e => exact hcourse (s.course_edit e)
  | finish scope e => exact hcourse (s.course_finish scope e)
  | bind b => exact hcourse (s.course_bind b)
  | subscribe scope name key code => exact hcourse (s.course_subscribe scope name key code)
  | listen node event name code => exact hcourse (s.course_listen node event name code)
  | retain scope node key code => exact hcourse (s.course_retain scope node key code)
  | _ => rfl

end Session

end ViewBinding

import ViewBinding.Number.Double
import ViewBinding.Table

/-!
# Model values

The values a model holds: null, booleans, integers, finite floats, strings, arrays and objects.
The members of an object are a table, in the order of their keys, so two objects are the same value
exactly when their members agree one by one.

`Value.same` is the equality by which a store tells a change from a repetition. It tells an integer
from a float of the same size, and takes the two zeros among the floats for one value.
-/

namespace ViewBinding.Json

open ViewBinding.Number

/-- A model value. What `ofMembers` and the reader make has the members of an object in order, each key
once. -/
inductive Value where
  | null
  | bool (b : Bool)
  | int (n : Int)
  /-- A number that is not an integer literal; `1.0` is not the `int` 1. -/
  | float (x : Double)
  | string (s : String)
  | array (items : List Value)
  /-- Values under keys, in the order of the keys, like a `Table`. -/
  | object (members : List (String × Value))
deriving Inhabited, Repr

namespace Value

mutual

/-- Whether two values are the same for a store, which then has nothing to tell. The two zeros of `Double`
are, an integer and a float never. -/
def same : Value → Value → Bool
  | null, null => true
  | bool a, bool b => a == b
  | int m, int n => m == n
  | float x, float y => x.same y
  | string s, string t => s == t
  | array xs, array ys => sameItems xs ys
  | object xs, object ys => sameMembers xs ys
  | _, _ => false

def sameItems : List Value → List Value → Bool
  | [], [] => true
  | x :: xs, y :: ys => same x y && sameItems xs ys
  | _, _ => false

def sameMembers : List (String × Value) → List (String × Value) → Bool
  | [], [] => true
  | (k, x) :: xs, (l, y) :: ys => k == l && same x y && sameMembers xs ys
  | _, _ => false

end

/-- The object with the given members, the last one of each key (`Table.ofList`). -/
def ofMembers (members : List (String × Value)) : Value :=
  object (Table.ofList members)

/-- The value as a signed 64-bit integer, if it is one (`as_i64`). -/
def asInt64? : Value → Option Int
  | int n => if -(twoPow 63 : Int) ≤ n ∧ n < (twoPow 63 : Int) then some n else none
  | _ => none

/-! ## Sameness is an equivalence -/

mutual

theorem same_refl : (v : Value) → same v v = true
  | null => rfl
  | bool _ => by simp [same]
  | int _ => by simp [same]
  | float x => by simp [same, Double.same]
  | string _ => by simp [same]
  | array xs => by rw [same]; exact sameItems_refl xs
  | object ms => by rw [same]; exact sameMembers_refl ms

theorem sameItems_refl : (xs : List Value) → sameItems xs xs = true
  | [] => rfl
  | x :: xs => by rw [sameItems, same_refl x, sameItems_refl xs]; rfl

theorem sameMembers_refl : (ms : List (String × Value)) → sameMembers ms ms = true
  | [] => rfl
  | (k, v) :: ms => by simp [sameMembers, same_refl v, sameMembers_refl ms]

end

mutual

/-- A value that is the `same` as another one is the same as whatever that one is. -/
theorem same_congr : ∀ {v w : Value}, same v w = true → ∀ u, same v u = same w u
  | null, null, _, _ => rfl
  | bool _, bool _, h, u => by simp only [same, beq_iff_eq] at h; rw [h]
  | int _, int _, h, u => by simp only [same, beq_iff_eq] at h; rw [h]
  | string _, string _, h, u => by simp only [same, beq_iff_eq] at h; rw [h]
  | float x, float y, h, u => by
    cases u with
    | float z => rw [same] at h ⊢; rw [same, Double.same_congr h]
    | _ => rfl
  | array xs, array ys, h, u => by
    cases u with
    | array zs => rw [same] at h ⊢; rw [same, sameItems_congr h]
    | _ => rfl
  | object xs, object ys, h, u => by
    cases u with
    | object zs => rw [same] at h ⊢; rw [same, sameMembers_congr h]
    | _ => rfl

theorem sameItems_congr : ∀ {vs ws : List Value}, sameItems vs ws = true →
    ∀ us, sameItems vs us = sameItems ws us
  | [], [], _, _ => rfl
  | v :: vs, w :: ws, h, us => by
    rw [sameItems, Bool.and_eq_true] at h
    cases us with
    | nil => rfl
    | cons u us => rw [sameItems, sameItems, same_congr h.1, sameItems_congr h.2]

theorem sameMembers_congr : ∀ {vs ws : List (String × Value)}, sameMembers vs ws = true →
    ∀ us, sameMembers vs us = sameMembers ws us
  | [], [], _, _ => rfl
  | (k, v) :: vs, (l, w) :: ws, h, us => by
    rw [sameMembers, Bool.and_eq_true, Bool.and_eq_true, beq_iff_eq] at h
    obtain ⟨⟨rfl, hvalue⟩, hrest⟩ := h
    cases us with
    | nil => rfl
    | cons u us => rw [sameMembers, sameMembers, same_congr hvalue, sameMembers_congr hrest]

end

end Value

end ViewBinding.Json

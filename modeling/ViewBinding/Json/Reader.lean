import ViewBinding.Json.Numeral

/-!
# Reading JSON text

`value` takes a whole value off the front of a text, and `read` reads a text that holds one value
and nothing else. Arrays and objects may nest 127 deep. `skipValue` passes over a value whose
content does not matter; it may nest to any depth.
-/

namespace ViewBinding.Json

/-! ## Sequences and objects -/

/-- Takes items off the front up to the closing bracket, folding each into a state; `first` says
whether no item was taken yet. The fuel bounds the number of items. -/
def items {σ : Type} (item : σ → Scan σ) : Nat → Bool → σ → Scan σ
  | 0, _, _, _ => .error .ended
  | fuel + 1, first, s, cs =>
    match skipSpace cs with
    | [] => .error .ended
    | ']' :: rest => .ok (s, rest)
    | ',' :: rest =>
      if first then .error .malformed
      else
        match skipSpace rest with
        | [] => .error .ended
        | ']' :: _ => .error .malformed
        | rest => do
          let (s, rest) ← item s rest
          items item fuel false s rest
    | rest =>
      if first then do
        let (s, rest) ← item s rest
        items item fuel false s rest
      else .error .malformed

def colon : Scan Unit := fun cs =>
  match skipSpace cs with
  | [] => .error .ended
  | ':' :: rest => .ok ((), rest)
  | _ => .error .malformed

/-- Takes members off the front up to the closing brace, folding each into a state; `member` is given
the key and takes the colon and the value. The fuel bounds the number of members. -/
def members {σ : Type} (member : σ → String → Scan σ) : Nat → Bool → σ → Scan σ
  | 0, _, _, _ => .error .ended
  | fuel + 1, first, s, cs =>
    match skipSpace cs with
    | [] => .error .ended
    | '\x7d' :: rest => .ok (s, rest)
    | '"' :: rest =>
      if first then do
        let (key, rest) ← string rest
        let (s, rest) ← member s key rest
        members member fuel false s rest
      else .error .malformed
    | ',' :: rest =>
      if first then .error .malformed
      else
        match skipSpace rest with
        | [] => .error .ended
        | '"' :: rest => do
          let (key, rest) ← string rest
          let (s, rest) ← member s key rest
          members member fuel false s rest
        | _ => .error .malformed
    | _ => .error .malformed

/-! ## Values -/

/-- How deep arrays and objects may nest in a text that is read; what is passed over (`skipValue`) may nest
deeper. -/
def maxDepth : Nat := 127

/-- Takes a value off the front; arrays and objects may nest `depth` deep. -/
def value (depth : Nat) : Scan Value := fun cs =>
  match skipSpace cs with
  | [] => .error .ended
  | 'n' :: rest => do
    let ((), rest) ← keyword ['u', 'l', 'l'] rest
    .ok (.null, rest)
  | 't' :: rest => do
    let ((), rest) ← keyword ['r', 'u', 'e'] rest
    .ok (.bool true, rest)
  | 'f' :: rest => do
    let ((), rest) ← keyword ['a', 'l', 's', 'e'] rest
    .ok (.bool false, rest)
  | '-' :: rest => numeral true rest
  | '"' :: rest => do
    let (s, rest) ← string rest
    .ok (.string s, rest)
  | '[' :: rest =>
    match depth with
    | 0 => .error .malformed
    | depth + 1 => do
      let item := fun (taken : List Value) cs => do
        let (v, cs) ← value depth cs
        .ok (v :: taken, cs)
      let (taken, rest) ← items item (rest.length + 1) true [] rest
      .ok (.array taken.reverse, rest)
  | '\x7b' :: rest =>
    match depth with
    | 0 => .error .malformed
    | depth + 1 => do
      let member := fun (taken : Table Value) key cs => do
        let ((), cs) ← colon cs
        let (v, cs) ← value depth cs
        .ok (Table.insert key v taken, cs)
      let (taken, rest) ← members member (rest.length + 1) true [] rest
      .ok (.object taken, rest)
  | c :: rest => if c.isDigit then numeral false (c :: rest) else .error .malformed

/-- Passes over a value; arrays and objects may nest `depth` deep. -/
def skipNested (depth : Nat) : Scan Unit := fun cs =>
  match skipSpace cs with
  | [] => .error .ended
  | 'n' :: rest => keyword ['u', 'l', 'l'] rest
  | 't' :: rest => keyword ['r', 'u', 'e'] rest
  | 'f' :: rest => keyword ['a', 'l', 's', 'e'] rest
  | '-' :: rest => skipNumeral rest
  | '"' :: rest => skipString rest
  | '[' :: rest =>
    match depth with
    | 0 => .error .malformed
    | depth + 1 => items (fun _ cs => skipNested depth cs) (rest.length + 1) true () rest
  | '\x7b' :: rest =>
    match depth with
    | 0 => .error .malformed
    | depth + 1 =>
      let key := skipMember (skipNested depth)
      key (rest.length + 1) true rest
  | c :: rest => if c.isDigit then skipNumeral (c :: rest) else .error .malformed
where
  skipMember (skip : Scan Unit) : Nat → Bool → Scan Unit
    | 0, _, _ => .error .ended
    | fuel + 1, first, cs =>
      match skipSpace cs with
      | [] => .error .ended
      | '\x7d' :: rest => .ok ((), rest)
      | c :: rest => do
        let rest ← if first then .ok (c :: rest) else if c = ',' then .ok (skipSpace rest)
          else .error .malformed
        match rest with
        | [] => .error .ended
        | '"' :: rest =>
          let ((), rest) ← skipString rest
          let ((), rest) ← colon rest
          let ((), rest) ← skip rest
          skipMember skip fuel false rest
        | _ => .error .malformed

/-- Passes over a value of any depth (`skipNested`). -/
def skipValue : Scan Unit := fun cs => skipNested cs.length cs

/-- Reads a whole text with a scanner: nothing but space (`skipSpace`) may follow. -/
def readWith {α : Type} (scan : Scan α) (text : String) : Except Fault α := do
  let (a, rest) ← scan text.toList
  match skipSpace rest with
  | [] => .ok a
  | _ => .error .malformed

/-- Reads a text that holds one value, as `Value.text` writes it. -/
def read (text : String) : Except Fault Value :=
  readWith (value maxDepth) text

end ViewBinding.Json

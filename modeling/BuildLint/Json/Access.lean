import BuildLint.Json.Value

/-!
# Json/Access — taking parts out of a value of unknown shape

A reply may have any shape, so every step into it can fail, in one of the ways of `AccessFault`.

* `field` and `element` — the part under a key, or under a key that is a value itself.
* `lookup?` — an optional member of what has to be an object.
* `iterate` — the values that a list, the keys of an object or the characters of a text stand for.
-/

namespace BuildLint

namespace Json

/-- **Why a step into a value fails.** -/
inductive AccessFault where
  /-- An object has no such member. -/
  | absent (key : Json)
  /-- A position lies outside a list. -/
  | outOfRange {position : Int}
  /-- A position lies outside a text. -/
  | outOfText {position : Int}
  /-- A value of this shape has no such parts. -/
  | wrongShape
  /-- Only an object can be asked for an optional member. -/
  | notAnObject

/-- What is wrong with a position in a list or a text: a position has 64 bits, its sign included,
and one that needs more is refused as a number. -/
def AccessFault.outside (kind : Text) (position : Int) : Text :=
  if -0x8000000000000000 ≤ position ∧ position < 0x8000000000000000 then
    kind ++ " index out of range"
  else "cannot fit 'int' into an index-sized integer"

/-- The step's fault in running text; two of them have no wording of their own. -/
def AccessFault.text : AccessFault → Text
  | .absent key => key.display
  | @outOfRange position => outside "list" position
  | @outOfText position => outside "string" position
  | .wrongShape => "<TypeError>"
  | .notAnObject => "<AttributeError>"

/-- The step's fault together with its kind. -/
def AccessFault.display : AccessFault → Text
  | .absent key => "KeyError(" ++ key.display ++ ")"
  | @outOfRange position => "IndexError(" ++ (outside "list" position).quoted ++ ")"
  | @outOfText position => "IndexError(" ++ (outside "string" position).quoted ++ ")"
  | .wrongShape => "<TypeError>"
  | .notAnObject => "<AttributeError>"

/-- A step into a value. -/
abbrev Access := Except AccessFault

/-- **The member under a key**, which has to be there. -/
def field (v : Json) (key : Text) : Access Json :=
  match v with
  | .object members =>
    match Keyed.get? members key with
    | some w => .ok w
    | none => .error (.absent (.string key))
  | _ => .error .wrongShape

/-- **An optional member** of an object. -/
def lookup? (v : Json) (key : Text) : Access (Option Json) :=
  match v with
  | .object members => .ok (Keyed.get? members key)
  | _ => .error .notAnObject

/-- An optional member, or null. -/
def lookup (v : Json) (key : Text) : Access Json := return (← v.lookup? key).getD .null

/-- The position that a value names: a whole number, the booleans being one and zero. -/
def position? : Json → Option Int
  | .int n => some n
  | .bool b => some b.toNat
  | _ => none

/-- The item at a position; a negative one counts from the end. -/
def itemAt? {α : Type} (items : List α) (n : Int) : Option α :=
  if n < 0 then
    if n.natAbs ≤ items.length then items[items.length - n.natAbs]? else none
  else items[n.toNat]?

/-- **The part under a key that is a value itself**: a position in a list or a text, a member of
an object. -/
def element (v key : Json) : Access Json :=
  match v with
  | .array items =>
    match key.position? with
    | some n => (itemAt? items n).elim (.error (@AccessFault.outOfRange n)) .ok
    | none => .error .wrongShape
  | .string s =>
    match key.position? with
    | some n => (itemAt? s n).elim (.error (@AccessFault.outOfText n)) fun c => .ok (.string [c])
    | none => .error .wrongShape
  | .object _ =>
    match key with
    | .string k => v.field k
    | .array _ => .error .wrongShape
    | .object _ => .error .wrongShape
    | _ => .error (.absent key)
  | _ => .error .wrongShape

/-- **The values to go through**: the items of a list, the keys of an object, the characters of a
text. -/
def iterate : Json → Access (List Json)
  | .array items => .ok items
  | .object members => .ok (members.map fun m => .string m.1)
  | .string s => .ok (s.map fun c => .string [c])
  | _ => .error .wrongShape

/-- The text that a value has to be. -/
def text : Json → Access Text
  | .string s => .ok s
  | _ => .error .wrongShape

/-- The texts that all of some values have to be. -/
def texts (values : List Json) : Access (List Text) := values.mapM text

end Json

end BuildLint

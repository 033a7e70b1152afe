import BuildLint.Keyed
import BuildLint.Numeral.Binary64
import BuildLint.Text.Quoted

/-!
# Json/Value — JSON values, and how a message shows one

Whole numbers of any size and floating-point numbers are different values.  An object keeps the
order in which its members were first written; giving a member again replaces its value in place.

* `isTruthy` — whether a value counts as present: empty and zero values do not.
* `same` — equality up to the order of members and the kind of number.
* `display` and `plain` — the form that messages show.
-/

namespace BuildLint

/-- **A JSON value.** -/
inductive Json where
  | null
  | bool (b : Bool)
  | int (n : Int)
  | float (x : Binary64)
  | string (s : Text)
  | array (items : List Json)
  | object (members : List (Text × Json))

namespace Json

instance : Inhabited Json := ⟨.null⟩

/-- The members of an object, in order. -/
abbrev Members := Keyed Text Json

/-! ## Presence -/

/-- **Whether a value counts as present**: null, false, zero and whatever is empty do not. -/
def isTruthy : Json → Bool
  | .null => false
  | .bool b => b
  | .int n => n != 0
  | .float (.finite _ m _) => m != 0
  | .float _ => true
  | .string s => !s.isEmpty
  | .array items => !items.isEmpty
  | .object members => !members.isEmpty

/-- The value itself if it counts as present, else another. -/
def orElse (v other : Json) : Json := if v.isTruthy then v else other

/-! ## Equality of content -/

/-- The number a value stands for, the two booleans being one and zero. -/
def number? : Json → Option Binary64
  | .bool b => some (.finite false b.toNat 0)
  | .int n => some (.finite (n < 0) n.natAbs 0)
  | .float x => some x
  | _ => none

/-- Whether two numbers have the same value; what is not a number differs from itself. -/
def sameNumber : Binary64 → Binary64 → Bool
  | .nan, _ => false
  | _, .nan => false
  | .infinity a, .infinity b => a == b
  | .infinity _, .finite .. => false
  | .finite .., .infinity _ => false
  | .finite a m d, .finite b n e =>
    let low := min d e
    let m := m * Nat.pow 2 (d - low).toNat
    let n := n * Nat.pow 2 (e - low).toNat
    m == n && (m == 0 || a == b)

mutual

/-- **Equality of content**: members in any order, numbers by value. -/
def same : Json → Json → Bool
  | .null, .null => true
  | .string s, .string t => s == t
  | .array items, .array others => sameItems items others
  | .object members, .object others =>
    members.length == others.length && sameMembers members others
  | a, b =>
    match number? a, number? b with
    | some x, some y => sameNumber x y
    | _, _ => false

/-- Equality of content, item by item. -/
def sameItems : List Json → List Json → Bool
  | [], [] => true
  | a :: items, b :: others => same a b && sameItems items others
  | _, _ => false

/-- Whether every member stands with equal content in another object. -/
def sameMembers : List (Text × Json) → Members → Bool
  | [], _ => true
  | (k, v) :: rest, others =>
    (match Keyed.get? others k with
      | some w => same v w
      | none => false) && sameMembers rest others

end

/-! ## Display -/

/-- Numbers in messages. -/
def displayLayout : Binary64.Layout := { infinity := "inf", nan := "nan" }

mutual

/-- **A value as messages show it**, texts in quotes. -/
def display : Json → Text
  | .null => "None"
  | .bool b => if b then "True" else "False"
  | .int n => Decimal.ofInt n
  | .float x => x.render displayLayout
  | .string s => s.quoted
  | .array items => "[" ++ Text.joinWith ", " (displayItems items) ++ "]"
  | .object members => "\x7b" ++ Text.joinWith ", " (displayMembers members) ++ "\x7d"

/-- The items of an array as messages show them. -/
def displayItems : List Json → List Text
  | [] => []
  | v :: rest => display v :: displayItems rest

/-- The members of an object as messages show them. -/
def displayMembers : List (Text × Json) → List Text
  | [] => []
  | (k, v) :: rest => (k.quoted ++ ": " ++ display v) :: displayMembers rest

end

/-- A value inside running text: a text as it is, anything else as messages show it. -/
def plain : Json → Text
  | .string s => s
  | v => v.display

end Json

end BuildLint

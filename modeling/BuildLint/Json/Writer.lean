import BuildLint.Json.Value

/-!
# Json/Writer — JSON text

The written form is printable ASCII.  Any other code point is written by its UTF-16 units, each as
four hexadecimal digits, so half of a surrogate pair has a written form too.

* `write` — a value on one line, with `", "` and `": "` between its parts.
* `writeIndented` — one item or member a line, two spaces a level.
-/

namespace BuildLint

namespace Json

/-- Numbers in JSON text. -/
def writtenLayout : Binary64.Layout := { infinity := "Infinity", nan := "NaN" }

/-- One UTF-16 unit by its number. -/
def writeUnit (n : Nat) : Text := "\\u" ++ Text.hex 4 n

/-- How one code point stands in a JSON string. -/
def writePoint (c : CodePoint) : Text :=
  if c = '"' then "\\\""
  else if c = '\\' then "\\\\"
  else if c = '\n' then "\\n"
  else if c = '\r' then "\\r"
  else if c = '\t' then "\\t"
  else if c.val = 8 then "\\b"
  else if c.val = 12 then "\\f"
  else if 0x20 ≤ c.val ∧ c.val < 0x7F then [c]
  else if c.val < 0x10000 then writeUnit c.val
  else
    let n := c.val - 0x10000
    writeUnit (0xD800 + n / 0x400) ++ writeUnit (0xDC00 + n % 0x400)

/-- A JSON string. -/
def writeString (s : Text) : Text := "\"" ++ s.flatMap writePoint ++ "\""

/-- A value that has no parts. -/
def writeScalar : Json → Text
  | .null => "null"
  | .bool b => if b then "true" else "false"
  | .int n => Decimal.ofInt n
  | .float x => x.render writtenLayout
  | .string s => writeString s
  | _ => []

mutual

/-- **The JSON text of a value** on one line. -/
def write : Json → Text
  | .array items => '[' :: writeItems items
  | .object members => '\x7b' :: writeMembers members
  | v => writeScalar v

/-- The items of an array and its closing bracket. -/
def writeItems : List Json → Text
  | [] => [']']
  | v :: rest => write v ++ (match rest with | [] => [] | _ => ", ") ++ writeItems rest

/-- The members of an object and its closing brace. -/
def writeMembers : List (Text × Json) → Text
  | [] => ['\x7d']
  | (k, v) :: rest =>
    writeString k ++ ": " ++ write v ++ (match rest with | [] => [] | _ => ", ") ++
      writeMembers rest

end

/-- A new line, indented by two spaces a level. -/
def newLine (level : Nat) : Text := '\n' :: Text.run (2 * level) ' '

mutual

/-- **The JSON text of a value**, one item or member a line. -/
def writeIndented (level : Nat) : Json → Text
  | .array [] => "[]"
  | .array items =>
    "[" ++ Text.joinWith "," (indentedItems (level + 1) items) ++ newLine level ++ "]"
  | .object [] => "\x7b\x7d"
  | .object members =>
    "\x7b" ++ Text.joinWith "," (indentedMembers (level + 1) members) ++ newLine level ++ "\x7d"
  | v => writeScalar v

/-- The items of an array, each on its line. -/
def indentedItems (level : Nat) : List Json → List Text
  | [] => []
  | v :: rest => (newLine level ++ writeIndented level v) :: indentedItems level rest

/-- The members of an object, each on its line. -/
def indentedMembers (level : Nat) : List (Text × Json) → List Text
  | [] => []
  | (k, v) :: rest =>
    (newLine level ++ writeString k ++ ": " ++ writeIndented level v) :: indentedMembers level rest

end

end Json

end BuildLint

import BuildLint.Failure

/-!
# Report/Finding — what one result of a log says

A result has to say which rule it is about, with what message, and where: in which file, on which
line, in which column.  The first of these that is missing makes it a failure, so no result is lost
without notice.

* `Finding.ofResult` — the finding of a result.
* `Finding.key` — what makes two findings the same.
-/

namespace BuildLint

/-- **A finding**: a rule, its message, and the place it is about. -/
structure Finding where
  rule : Text
  message : Text
  uri : Text
  line : Int
  column : Int
deriving DecidableEq

namespace Finding

/-- A text that is not empty. -/
def filledText? : Option Json → Option Text
  | some (.string []) => none
  | some (.string s) => some s
  | _ => none

/-- A member of a value that may be anything. -/
def memberOf? (key : Text) : Option Json → Option Json
  | some (.object members) => Keyed.get? members key
  | _ => none

/-- The first item of a value that may be anything. -/
def firstOf? : Option Json → Option Json
  | some (.array (first :: _)) => some first
  | _ => none

/-- A whole number. -/
def whole? : Option Json → Option Int
  | some (.int n) => some n
  | _ => none

/-- Any text. -/
def text? : Option Json → Option Text
  | some (.string s) => some s
  | _ => none

/-- A value that counts as present. -/
def present? (v : Option Json) : Option Json := v.filter Json.isTruthy

/-- The place that a result names, which has to be in full. -/
def place? (physical : Json) : Option (Text × Int × Int) := do
  let uri ← text? (memberOf? "uri" (memberOf? "artifactLocation" physical))
  let region := memberOf? "region" physical
  let line ← whole? (memberOf? "startLine" region)
  let column ← whole? (memberOf? "startColumn" region)
  return (uri, line, column)

/-- **The finding of a result.** -/
def ofResult (result : Json) : Except AggregationCause Finding :=
  match result with
  | .object members =>
    match filledText? (Keyed.get? members "ruleId") with
    | none => .error .noRule
    | some rule =>
      match filledText? (memberOf? "text" (Keyed.get? members "message")) with
      | none => .error (.noMessage rule)
      | some message =>
        let first := firstOf? (Keyed.get? members "locations")
        match present? (memberOf? "physicalLocation" first) with
        | none => .error (.noLocation rule message)
        | some physical =>
          match place? physical with
          | none => .error (.invalidLocation rule message)
          | some (uri, line, column) => .ok ⟨rule, message, uri, line, column⟩
  | _ => .error (.malformedResult result)

/-- **What makes two findings the same**: place, rule and message. -/
def key (f : Finding) : Text × Text × Int × Int × Text :=
  (f.uri, f.rule, f.line, f.column, f.message)

/-- Findings with the same key are equal. -/
theorem key_injective {f g : Finding} (h : f.key = g.key) : f = g := by
  obtain ⟨⟩ := f
  obtain ⟨⟩ := g
  simp only [key, Prod.mk.injEq] at h
  simp [h]

end Finding

end BuildLint

import BuildLint.Action
import BuildLint.Text.Digit

/-!
# CMake/Version — which versions of CMake will do

A version is compared by the numbers that its dotted components begin with; a component that begins
with no digit counts as zero, and whatever follows the digits is ignored.  Versions compare
component by component, and a version that another one continues is the older one.

A component may begin with a digit sign that is part of no numeral, or with more digits than a
number may have; such a version cannot be compared.
-/

namespace BuildLint

namespace Version

/-- The oldest version that will do. -/
def minimum : Text := "3.20.5"

/-- The most digits a component may begin with. -/
def maxDigits : Nat := 4300

/-- The digit signs that a component begins with. -/
def leadingDigits (component : Text) : Text := component.takeWhile CodePoint.isDigitSign

/-- The number that a component begins with. -/
def number? (component : Text) : Option Nat :=
  let digits := leadingDigits component
  if maxDigits < digits.length then none
  else (digits.mapM CodePoint.digitValue?).map fun values =>
    values.foldl (fun n d => 10 * n + d) 0

/-- **The numbers of a version.** -/
def numbers? (version : Text) : Option (List Nat) := (version.cutWhere (· = '.')).mapM number?

/-- Whether one version comes before another. -/
def isOlder : List Nat → List Nat → Bool
  | _, [] => false
  | [], _ :: _ => true
  | a :: as, b :: bs => a < b || (a == b && isOlder as bs)

/-- **Refuse a version** older than another. -/
def check (version minimum : Text) : Except Fault Unit :=
  match numbers? version, numbers? minimum with
  | some v, some m =>
    if isOlder v m then .error (.failure (.metadata (.versionTooOld version minimum))) else .ok ()
  | _, _ => .error .badNumber

end Version

end BuildLint

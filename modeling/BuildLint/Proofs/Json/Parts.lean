import BuildLint.Json.Reader
import BuildLint.Proofs.Keyed
import BuildLint.Proofs.Text.CodePoints

/-!
# Proofs/Json/Parts — the parts of a value

A value contains its items and members, their items and members, and so on.  Two properties of a
value are properties of all its parts.

* `HasNoFloat` — no part is a floating-point number.
* `IsSpellable` — a JSON text can spell it: no whole number is too long, no text holds a surrogate
  pair, and no object has a key twice.
-/

namespace BuildLint

namespace Json

/-- **The parts of a value**: itself, and the parts of its items and members. -/
inductive IsPartOf : Json → Json → Prop
  | self (v) : IsPartOf v v
  | item {v w items} (listed : w ∈ items) (part : IsPartOf v w) : IsPartOf v (.array items)
  | member {v w key members} (listed : (key, w) ∈ members) (part : IsPartOf v w) :
      IsPartOf v (.object members)

/-- A part of a part is a part. -/
theorem IsPartOf.trans {u v w : Json} (huv : IsPartOf u v) (hvw : IsPartOf v w) :
    IsPartOf u w := by
  induction hvw with
  | self => exact huv
  | item listed _ ih => exact .item listed ih
  | member listed _ ih => exact .member listed ih

/-- **No part is a floating-point number.** -/
def HasNoFloat (v : Json) : Prop := ∀ x, ¬IsPartOf (.float x) v

theorem HasNoFloat.part {v w : Json} (h : HasNoFloat v) (hw : IsPartOf w v) : HasNoFloat w :=
  fun x hx => h x (hx.trans hw)

@[simp] theorem hasNoFloat_null : HasNoFloat .null := fun _ h => nomatch h

@[simp] theorem hasNoFloat_int (n : Int) : HasNoFloat (.int n) := fun _ h => nomatch h

@[simp] theorem hasNoFloat_string (s : Text) : HasNoFloat (.string s) := fun _ h => nomatch h

@[simp] theorem hasNoFloat_array {items : List Json} :
    HasNoFloat (.array items) ↔ ∀ v ∈ items, v.HasNoFloat := by
  refine ⟨fun h v hv => h.part (.item hv (.self v)), fun h x hx => ?_⟩
  cases hx with
  | item listed part => exact h _ listed x part

@[simp] theorem hasNoFloat_object {members : Members} :
    HasNoFloat (.object members) ↔ ∀ m ∈ members, m.2.HasNoFloat := by
  refine ⟨fun h m hm => h.part (.member hm (.self m.2)), fun h x hx => ?_⟩
  cases hx with
  | member listed part => exact h _ listed x part

/-- **A value that a JSON text can spell.** -/
inductive IsSpellable : Json → Prop
  | null : IsSpellable .null
  | bool (b) : IsSpellable (.bool b)
  | int {n} (short : (Decimal.ofNat n.natAbs).length ≤ maxDigits) : IsSpellable (.int n)
  | float (x) : IsSpellable (.float x)
  | string {s} (unpaired : s.Unpaired) : IsSpellable (.string s)
  | array {items} (parts : ∀ v ∈ items, IsSpellable v) : IsSpellable (.array items)
  | object {members : Members} (once : (members.map Prod.fst).Nodup)
      (unpaired : ∀ m ∈ members, m.1.Unpaired) (parts : ∀ m ∈ members, IsSpellable m.2) :
      IsSpellable (.object members)

@[simp] theorem isSpellable_null : IsSpellable .null := .null

@[simp] theorem isSpellable_int {n : Int} :
    IsSpellable (.int n) ↔ (Decimal.ofNat n.natAbs).length ≤ maxDigits :=
  ⟨fun h => by cases h with | int short => exact short, .int⟩

@[simp] theorem isSpellable_string {s : Text} : IsSpellable (.string s) ↔ s.Unpaired :=
  ⟨fun h => by cases h with | string unpaired => exact unpaired, .string⟩

@[simp] theorem isSpellable_array {items : List Json} :
    IsSpellable (.array items) ↔ ∀ v ∈ items, v.IsSpellable :=
  ⟨fun h => by cases h with | array parts => exact parts, .array⟩

@[simp] theorem isSpellable_object {members : Members} :
    IsSpellable (.object members) ↔ (members.map Prod.fst).Nodup ∧
      ∀ m ∈ members, m.1.Unpaired ∧ m.2.IsSpellable := by
  constructor
  · intro h
    cases h with
    | object once unpaired parts => exact ⟨once, fun m hm => ⟨unpaired m hm, parts m hm⟩⟩
  · rintro ⟨once, h⟩
    exact .object once (fun m hm => (h m hm).1) fun m hm => (h m hm).2

theorem IsSpellable.part {v w : Json} (h : IsSpellable v) (hw : IsPartOf w v) :
    IsSpellable w := by
  induction hw with
  | self => exact h
  | item listed _ ih =>
    cases h with
    | array parts => exact ih (parts _ listed)
  | member listed _ ih =>
    cases h with
    | object _ _ parts => exact ih (parts _ listed)

end Json

end BuildLint

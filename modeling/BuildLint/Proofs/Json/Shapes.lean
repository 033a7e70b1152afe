import BuildLint.Json.Access
import BuildLint.Proofs.Steps

/-!
# Proofs/Json/Shapes — a value's shape decides which steps into it fail

Only an object can be asked for an optional member, only a text is taken as one, and only a list, an
object or a text can be gone through.  Each step fails on every other shape, and in one way.

* `IsObject`, `IsText`, `IsIterable` — the shapes.
* `lookup_eq_error`, `text_eq_error`, `iterate_eq_error` — which steps fail, and how.
* `lookup_eq_ok` — a member that counts as present is the one under the key.
-/

namespace BuildLint

namespace Json

/-- A value is an object. -/
def IsObject (v : Json) : Prop := ∃ members, v = .object members

/-- A value is a text. -/
def IsText (v : Json) : Prop := ∃ s, v = .string s

/-- **A value can be gone through**: it is a list, an object or a text. -/
def IsIterable (v : Json) : Prop := (∃ items, v = .array items) ∨ v.IsObject ∨ v.IsText

variable {v w : Json} {key : Text} {f : AccessFault}

theorem isObject_object (members : Members) : (object members).IsObject := ⟨members, rfl⟩

theorem isText_string (s : Text) : (string s).IsText := ⟨s, rfl⟩

theorem lookup?_eq_error : v.lookup? key = .error f ↔ ¬v.IsObject ∧ f = .notAnObject := by
  cases v with
  | object members =>
    exact ⟨fun h => (nomatch h), fun ⟨h, _⟩ => absurd (isObject_object members) h⟩
  | _ =>
    refine ⟨fun h => ⟨fun ⟨_, hv⟩ => (nomatch hv), (Except.error.inj h).symm⟩, ?_⟩
    rintro ⟨-, rfl⟩
    rfl

theorem exists_lookup? (h : v.IsObject) (key : Text) : ∃ o, v.lookup? key = .ok o := by
  obtain ⟨members, rfl⟩ := h
  exact ⟨_, rfl⟩

theorem lookup_eq_error : v.lookup key = .error f ↔ ¬v.IsObject ∧ f = .notAnObject := by
  rw [lookup, Steps.bind_eq_error, lookup?_eq_error]
  refine or_iff_left ?_
  rintro ⟨o, -, h⟩
  cases h

theorem exists_lookup (h : v.IsObject) (key : Text) : ∃ w, v.lookup key = .ok w := by
  obtain ⟨members, rfl⟩ := h
  exact ⟨_, rfl⟩

theorem isObject_of_field (h : v.field key = .ok w) : v.IsObject := by
  cases v with
  | object members => exact isObject_object members
  | _ => cases h

theorem isObject_of_lookup (h : v.lookup key = .ok w) : v.IsObject := by
  by_contra hobject
  rw [lookup_eq_error.2 ⟨hobject, rfl⟩] at h
  cases h

theorem field_of_lookup? (h : v.lookup? key = .ok (some w)) : v.field key = .ok w := by
  cases v with
  | object members =>
    rw [field, Except.ok.inj h]
  | _ => cases h

/-- **A member that is not null** is found where it has to be. -/
theorem lookup_eq_ok (hw : w ≠ .null) : v.lookup key = .ok w ↔ v.field key = .ok w := by
  cases v with
  | object members =>
    have hlookup : (object members).lookup key = .ok ((Keyed.get? members key).getD .null) := rfl
    rw [hlookup, field]
    cases Keyed.get? members key with
    | some u => rfl
    | none =>
      refine iff_of_false (fun h => hw (Except.ok.inj h).symm) ?_
      rintro ⟨⟩
  | _ =>
    refine iff_of_false ?_ ?_
    · rintro ⟨⟩
    · rintro ⟨⟩

theorem ne_null_of_isTruthy (h : w.isTruthy = true) : w ≠ .null := by
  rintro rfl
  cases h

theorem isTruthy_of_field (h : v.field key = .ok w) : v.isTruthy = true := by
  obtain ⟨members, rfl⟩ := isObject_of_field h
  cases members with
  | nil => cases h
  | cons m rest => rfl

theorem eq_of_lookup {u : Json} (hw : v.lookup key = .ok w) (hu : v.field key = .ok u)
    (ht : u.isTruthy = true) : w = u :=
  Except.ok.inj (hw.symm.trans ((lookup_eq_ok (ne_null_of_isTruthy ht)).2 hu))

/-- **What counts as present counts**, and what does not is replaced. -/
theorem orElse_of_isTruthy (h : v.isTruthy = true) (other : Json) : v.orElse other = v := if_pos h

theorem orElse_of_not_isTruthy (h : v.isTruthy = false) (other : Json) : v.orElse other = other :=
  if_neg (by rw [h]; exact Bool.false_ne_true)

/-- An object that does not count as present has no members. -/
theorem IsObject.orElse_nil (h : v.IsObject) : v.orElse (.object []) = v := by
  obtain ⟨members, rfl⟩ := h
  cases members <;> rfl

/-- Only a member that counts as present can have the wrong shape. -/
theorem exists_lookup_orElse (h : v.IsObject) (key : Text) (other : Json) :
    ∃ w, v.lookup key = .ok w ∧
      (w.isTruthy = false ∧ w.orElse other = other ∨
        v.field key = .ok w ∧ w.isTruthy = true ∧ w.orElse other = w) := by
  obtain ⟨w, hw⟩ := exists_lookup h key
  refine ⟨w, hw, ?_⟩
  cases ht : w.isTruthy with
  | false => exact .inl ⟨rfl, orElse_of_not_isTruthy ht other⟩
  | true =>
    exact .inr ⟨(lookup_eq_ok (ne_null_of_isTruthy ht)).1 hw, rfl, orElse_of_isTruthy ht other⟩

theorem text_eq_error : v.text = .error f ↔ ¬v.IsText ∧ f = .wrongShape := by
  cases v with
  | string s => exact ⟨fun h => (nomatch h), fun ⟨h, _⟩ => absurd (isText_string s) h⟩
  | _ =>
    refine ⟨fun h => ⟨fun ⟨_, hv⟩ => (nomatch hv), (Except.error.inj h).symm⟩, ?_⟩
    rintro ⟨-, rfl⟩
    rfl

theorem eq_string_of_text {s : Text} (h : v.text = .ok s) : v = .string s := by
  cases v with
  | string t => exact congrArg string (Except.ok.inj h)
  | _ => cases h

theorem exists_iterate (h : v.IsIterable) : ∃ items, v.iterate = .ok items := by
  obtain ⟨items, rfl⟩ | ⟨members, rfl⟩ | ⟨s, rfl⟩ := h
  · exact ⟨_, rfl⟩
  · exact ⟨_, rfl⟩
  · exact ⟨_, rfl⟩

theorem iterate_eq_error : v.iterate = .error f ↔ ¬v.IsIterable ∧ f = .wrongShape := by
  constructor
  · intro h
    refine ⟨fun hv => ?_, ?_⟩
    · obtain ⟨items, hitems⟩ := exists_iterate hv
      rw [hitems] at h
      cases h
    · cases v <;> first | exact (Except.error.inj h).symm | cases h
  · rintro ⟨hv, rfl⟩
    cases v with
    | array items => exact absurd (.inl ⟨items, rfl⟩) hv
    | object members => exact absurd (.inr (.inl ⟨members, rfl⟩)) hv
    | string s => exact absurd (.inr (.inr ⟨s, rfl⟩)) hv
    | _ => rfl

/-- What can be gone through counts as present unless nothing is in it. -/
theorem isTruthy_iff_of_iterate {items : List Json} (h : v.iterate = .ok items) :
    v.isTruthy = true ↔ items ≠ [] := by
  cases v with
  | array vs =>
    obtain rfl := Except.ok.inj h
    simp [isTruthy]
  | object members =>
    obtain rfl := Except.ok.inj h
    simp [isTruthy]
  | string s =>
    obtain rfl := Except.ok.inj h
    simp [isTruthy]
  | _ => cases h

/-- A part is missing, or there is nothing of the kind. -/
def AccessFault.IsMissing : AccessFault → Prop
  | .absent _ => True
  | .wrongShape => True
  | _ => False

/-- **A part that has to be there** is missing, or there is nothing of the kind. -/
theorem field_eq_error (h : v.field key = .error f) : f.IsMissing := by
  cases v with
  | object members =>
    rw [field] at h
    split at h
    · cases h
    · obtain rfl := Except.error.inj h
      trivial
  | _ =>
    obtain rfl := Except.error.inj h
    trivial

end Json

end BuildLint

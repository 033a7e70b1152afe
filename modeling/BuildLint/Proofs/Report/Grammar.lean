import BuildLint.Proofs.Json.Shapes
import BuildLint.Report.Finding

/-!
# Proofs/Report/Grammar — which results have a finding

A result has a finding if it has three parts: a rule, a message, and a location whose place is given
in full.  The finding is what these parts say (`IsFindingOf`), and nothing else in the result
matters.  If a part is missing, the first one that is decides the failure (`Lacks`).

* `HasRule`, `HasMessage`, `HasLocation`, `IsPlace` — the parts.
* `isFindingOf_or_lacks` — every result has all the parts, or lacks one.
* `ofResult_spec` — which results have a finding, which one, and which failure the others lead to.
-/

namespace BuildLint

namespace Finding

/-! ## The parts of a result -/

/-- **A result names a rule.** -/
def HasRule (v : Json) (rule : Text) : Prop :=
  v.field "ruleId" = .ok (.string rule) ∧ rule ≠ []

/-- **A result has a message.** -/
def HasMessage (v : Json) (message : Text) : Prop :=
  (∃ w, v.field "message" = .ok w ∧ w.field "text" = .ok (.string message)) ∧ message ≠ []

/-- The first location of a result, as far as it is physical. -/
def IsLocation (v physical : Json) : Prop :=
  ∃ first rest, v.field "locations" = .ok (.array (first :: rest)) ∧
    first.field "physicalLocation" = .ok physical

/-- **A result has a location**: the first of its locations is physical, and not empty. -/
def HasLocation (v physical : Json) : Prop := IsLocation v physical ∧ physical.isTruthy = true

/-- **A place in full**: a file, and whole numbers for line and column. -/
structure IsPlace (physical : Json) (uri : Text) (line column : Int) : Prop where
  uri : ∃ w, physical.field "artifactLocation" = .ok w ∧ w.field "uri" = .ok (.string uri)
  position : ∃ w, physical.field "region" = .ok w ∧ w.field "startLine" = .ok (.int line) ∧
    w.field "startColumn" = .ok (.int column)

/-- **A result says a finding**: these five values stand where they have to. -/
structure IsFindingOf (v : Json) (f : Finding) : Prop where
  rule : HasRule v f.rule
  message : HasMessage v f.message
  location : ∃ physical, IsLocation v physical ∧ IsPlace physical f.uri f.line f.column

/-- **What a result lacks**: the first part that is missing. -/
inductive Lacks (v : Json) : AggregationCause → Prop
  | members (h : ¬v.IsObject) : Lacks v (.malformedResult v)
  | rule (hv : v.IsObject) (h : ∀ rule, ¬HasRule v rule) : Lacks v .noRule
  | message {rule : Text} (hrule : HasRule v rule) (h : ∀ message, ¬HasMessage v message) :
      Lacks v (.noMessage rule)
  | location {rule message : Text} (hrule : HasRule v rule) (hmessage : HasMessage v message)
      (h : ∀ physical, ¬HasLocation v physical) : Lacks v (.noLocation rule message)
  | place {rule message : Text} {physical : Json} (hrule : HasRule v rule)
      (hmessage : HasMessage v message) (hlocation : HasLocation v physical)
      (h : ∀ uri line column, ¬IsPlace physical uri line column) :
      Lacks v (.invalidLocation rule message)

/-! ## Looking the parts up -/

variable {o : Option Json} {v w physical : Json} {key s : Text} {n : Int} {members : Json.Members}
  {f : Finding} {cause : AggregationCause}

theorem filledText?_eq_some : filledText? o = some s ↔ o = some (.string s) ∧ s ≠ [] := by
  rw [filledText?.eq_def]
  split
  · refine iff_of_false (fun h => nomatch h) ?_
    rintro ⟨h, hne⟩
    exact hne (Json.string.inj (Option.some.inj h)).symm
  · rename_i t ht
    refine ⟨?_, fun ⟨h, _⟩ => congrArg some (Json.string.inj (Option.some.inj h))⟩
    intro h
    obtain rfl := Option.some.inj h
    exact ⟨rfl, fun hnil => ht (hnil ▸ rfl)⟩
  · rename_i hstring
    exact iff_of_false (fun h => nomatch h) fun ⟨h, _⟩ => hstring s h

theorem text?_eq_some_iff : text? o = some s ↔ o = some (.string s) := by
  rw [text?.eq_def]
  split
  · exact ⟨fun h => by rw [Option.some.inj h], fun h => by rw [Json.string.inj (Option.some.inj h)]⟩
  · rename_i hstring
    exact iff_of_false (fun h => nomatch h) (hstring s)

theorem whole?_eq_some : whole? o = some n ↔ o = some (.int n) := by
  rw [whole?.eq_def]
  split
  · exact ⟨fun h => by rw [Option.some.inj h], fun h => by rw [Json.int.inj (Option.some.inj h)]⟩
  · rename_i hint
    exact iff_of_false (fun h => nomatch h) (hint n)

theorem firstOf?_eq_some : firstOf? o = some w ↔ ∃ rest, o = some (.array (w :: rest)) := by
  rw [firstOf?.eq_def]
  split
  · rename_i first rest
    constructor
    · intro h
      obtain rfl := Option.some.inj h
      exact ⟨rest, rfl⟩
    · rintro ⟨_, h⟩
      exact congrArg some (List.cons.inj (Json.array.inj (Option.some.inj h))).1
  · rename_i hlist
    exact iff_of_false (fun h => nomatch h) fun ⟨rest, h⟩ => hlist w rest h

theorem present?_eq_some : present? o = some w ↔ o = some w ∧ w.isTruthy = true :=
  Option.filter_eq_some_iff

/-- A member is found where it has to be. -/
theorem get?_eq_some_iff_field :
    Keyed.get? members key = some w ↔ (Json.object members).field key = .ok w := by
  rw [Json.field]
  cases Keyed.get? members key with
  | none => exact iff_of_false (by rintro ⟨⟩) (by rintro ⟨⟩)
  | some u => exact ⟨fun h => congrArg _ (Option.some.inj h), fun h => congrArg _ (Except.ok.inj h)⟩

theorem memberOf?_eq_some :
    memberOf? key o = some w ↔ ∃ v, o = some v ∧ v.field key = .ok w := by
  rw [memberOf?.eq_def]
  split
  · rw [get?_eq_some_iff_field]
    exact ⟨fun h => ⟨_, rfl, h⟩, fun ⟨v, hv, h⟩ => Option.some.inj hv ▸ h⟩
  · rename_i hobject
    refine iff_of_false (fun h => nomatch h) ?_
    rintro ⟨v, rfl, h⟩
    obtain ⟨members, rfl⟩ := Json.isObject_of_field h
    exact hobject members rfl

theorem memberOf?_memberOf?_eq_some {inner : Text} :
    memberOf? inner (memberOf? key (some v)) = some w ↔
      ∃ u, v.field key = .ok u ∧ u.field inner = .ok w := by
  simp only [memberOf?_eq_some, Option.some.injEq, exists_eq_left']

theorem place?_eq_some {uri : Text} {line column : Int} :
    place? physical = some (uri, line, column) ↔ IsPlace physical uri line column := by
  simp only [place?, Option.bind_eq_bind, Option.bind_eq_some_iff, text?_eq_some_iff,
    whole?_eq_some, memberOf?_memberOf?_eq_some, Option.pure_def, Option.some.injEq, Prod.mk.injEq]
  constructor
  · rintro ⟨_, huri, _, ⟨w, hw, hline⟩, _, ⟨w', hw', hcolumn⟩, rfl, rfl, rfl⟩
    obtain rfl := Except.ok.inj (hw.symm.trans hw')
    exact ⟨huri, w, hw, hline, hcolumn⟩
  · rintro ⟨huri, w, hw, hline, hcolumn⟩
    exact ⟨_, huri, _, ⟨w, hw, hline⟩, _, ⟨w, hw, hcolumn⟩, rfl, rfl, rfl⟩

/-! ## The parts of an object -/

theorem rule?_eq_some :
    filledText? (Keyed.get? members "ruleId") = some s ↔ HasRule (.object members) s := by
  rw [filledText?_eq_some, get?_eq_some_iff_field, HasRule]

theorem message?_eq_some :
    filledText? (memberOf? "text" (Keyed.get? members "message")) = some s ↔
      HasMessage (.object members) s := by
  simp only [filledText?_eq_some, memberOf?_eq_some, get?_eq_some_iff_field, HasMessage]

theorem location?_eq_some :
    present? (memberOf? "physicalLocation" (firstOf? (Keyed.get? members "locations"))) =
      some physical ↔ HasLocation (.object members) physical := by
  simp only [present?_eq_some, memberOf?_eq_some, firstOf?_eq_some, get?_eq_some_iff_field,
    HasLocation, IsLocation, exists_and_right]

/-! ## Accepted or refused -/

/-- **Every result says a finding or lacks a part.** -/
theorem isFindingOf_or_lacks (v : Json) : (∃ f, IsFindingOf v f) ∨ ∃ cause, Lacks v cause := by
  by_cases hv : v.IsObject
  swap
  · exact .inr ⟨_, .members hv⟩
  by_cases hrule : ∃ rule, HasRule v rule
  swap
  · exact .inr ⟨_, .rule hv (not_exists.1 hrule)⟩
  obtain ⟨rule, hrule⟩ := hrule
  by_cases hmessage : ∃ message, HasMessage v message
  swap
  · exact .inr ⟨_, .message hrule (not_exists.1 hmessage)⟩
  obtain ⟨message, hmessage⟩ := hmessage
  by_cases hlocation : ∃ physical, HasLocation v physical
  swap
  · exact .inr ⟨_, .location hrule hmessage (not_exists.1 hlocation)⟩
  obtain ⟨physical, hlocation⟩ := hlocation
  by_cases hplace : ∃ uri line column, IsPlace physical uri line column
  · obtain ⟨uri, line, column, hplace⟩ := hplace
    exact .inl ⟨⟨rule, message, uri, line, column⟩, hrule, hmessage, physical, hlocation.1, hplace⟩
  · exact .inr ⟨_, .place hrule hmessage hlocation fun uri line column h => hplace ⟨_, _, _, h⟩⟩

theorem IsPlace.isTruthy {uri : Text} {line column : Int} (h : IsPlace physical uri line column) :
    physical.isTruthy = true := by
  obtain ⟨w, hw, -⟩ := h.uri
  exact Json.isTruthy_of_field hw

/-- **What a result says is found.** -/
theorem ofResult_eq_ok (h : IsFindingOf v f) : ofResult v = .ok f := by
  obtain ⟨hrule, hmessage, physical, hlocation, hplace⟩ := h
  obtain ⟨members, rfl⟩ := Json.isObject_of_field hrule.1
  simp only [ofResult, rule?_eq_some.2 hrule, message?_eq_some.2 hmessage,
    location?_eq_some.2 ⟨hlocation, hplace.isTruthy⟩, place?_eq_some.2 hplace]

/-- **What a result lacks is why it is refused.** -/
theorem ofResult_eq_error (h : Lacks v cause) : ofResult v = .error cause := by
  have hnone : ∀ {α : Type} {x : Option α} {p : α → Prop}, (∀ a, x = some a ↔ p a) →
      (∀ a, ¬p a) → x = none := fun hx hp =>
    Option.eq_none_iff_forall_ne_some.2 fun a ha => hp a ((hx a).1 ha)
  cases h with
  | members h =>
    rw [ofResult.eq_def]
    split
    · exact absurd (Json.isObject_object _) h
    · rfl
  | rule hv h =>
    obtain ⟨members, rfl⟩ := hv
    simp only [ofResult, hnone (fun _ => rule?_eq_some) h]
  | message hrule h =>
    obtain ⟨members, rfl⟩ := Json.isObject_of_field hrule.1
    simp only [ofResult, rule?_eq_some.2 hrule, hnone (fun _ => message?_eq_some) h]
  | location hrule hmessage h =>
    obtain ⟨members, rfl⟩ := Json.isObject_of_field hrule.1
    simp only [ofResult, rule?_eq_some.2 hrule, message?_eq_some.2 hmessage,
      hnone (fun _ => location?_eq_some) h]
  | place hrule hmessage hlocation h =>
    obtain ⟨members, rfl⟩ := Json.isObject_of_field hrule.1
    have hplace := hnone (fun _ => place?_eq_some) fun p => h p.1 p.2.1 p.2.2
    simp only [ofResult, rule?_eq_some.2 hrule, message?_eq_some.2 hmessage,
      location?_eq_some.2 hlocation, hplace]

theorem ofResult_eq_ok_iff : ofResult v = .ok f ↔ IsFindingOf v f := by
  refine ⟨fun h => ?_, ofResult_eq_ok⟩
  rcases isFindingOf_or_lacks v with ⟨g, hg⟩ | ⟨cause, hcause⟩
  · obtain rfl := Except.ok.inj (h.symm.trans (ofResult_eq_ok hg))
    exact hg
  · cases h.symm.trans (ofResult_eq_error hcause)

theorem ofResult_eq_error_iff : ofResult v = .error cause ↔ Lacks v cause := by
  refine ⟨fun h => ?_, ofResult_eq_error⟩
  rcases isFindingOf_or_lacks v with ⟨f, hf⟩ | ⟨other, hother⟩
  · cases h.symm.trans (ofResult_eq_ok hf)
  · obtain rfl := Except.error.inj (h.symm.trans (ofResult_eq_error hother))
    exact hother

/-! ## What else a result holds -/

/-- The members of a result in which its parts stand. -/
def partKeys : List Text := ["ruleId", "message", "locations"]

/-- Another member makes no difference, whether or not there is a finding. -/
theorem ofResult_put (h : key ∉ partKeys) (w : Json) (members : Json.Members) :
    ofResult (.object (Keyed.set members key w)) = ofResult (.object members) := by
  have hother : ∀ part ∈ partKeys,
      Keyed.get? (Keyed.set members key w) part = Keyed.get? members part := by
    intro part hpart
    exact Keyed.get?_set_of_ne (ne_of_mem_of_not_mem hpart h) w members
  simp only [ofResult, hother "ruleId" (by decide), hother "message" (by decide),
    hother "locations" (by decide)]

/-- Other locations behind the first make no difference. -/
theorem ofResult_put_locations {first : Json} {rest : List Json}
    (h : Keyed.get? members "locations" = some (.array (first :: rest))) (others : List Json) :
    ofResult (.object (Keyed.set members "locations" (.array (first :: others)))) =
      ofResult (.object members) := by
  have hother : ∀ part : Text, part ≠ "locations" →
      Keyed.get? (Keyed.set members "locations" (.array (first :: others))) part =
        Keyed.get? members part := fun part hpart => Keyed.get?_set_of_ne hpart _ members
  simp only [ofResult, hother "ruleId" (by decide), hother "message" (by decide),
    Keyed.get?_set_self, h, firstOf?]

/-- **Which results have a finding.**  A result has one exactly if it says it: a rule, a message and
a place, and these are all that the finding holds.  Any other value is refused for the first part
that it lacks.  Results that say the same have the same finding; another member, or other locations
behind the first, change neither a finding nor a refusal. -/
theorem ofResult_spec (v : Json) :
    (∀ f, ofResult v = .ok f ↔ IsFindingOf v f) ∧
    (∀ cause, ofResult v = .error cause ↔ Lacks v cause) ∧
    (∀ w f, IsFindingOf v f → IsFindingOf w f → ofResult w = ofResult v) ∧
    ∀ members, v = .object members →
      (∀ key w, key ∉ partKeys → ofResult (.object (Keyed.set members key w)) = ofResult v) ∧
      ∀ first rest others, Keyed.get? members "locations" = some (.array (first :: rest)) →
        ofResult (.object (Keyed.set members "locations" (.array (first :: others)))) =
          ofResult v := by
  refine ⟨fun f => ofResult_eq_ok_iff, fun cause => ofResult_eq_error_iff, fun w f hv hw => ?_, ?_⟩
  · rw [ofResult_eq_ok hv, ofResult_eq_ok hw]
  · rintro members rfl
    exact ⟨fun key w hkey => ofResult_put hkey w members,
      fun first rest others h => ofResult_put_locations h others⟩

/-- A physical location without members is no location, while one of another shape is one without a
place. -/
example :
    let result (physical : Json) : Json := .object [("ruleId", .string "C1"),
      ("message", .object [("text", .string "m")]),
      ("locations", .array [.object [("physicalLocation", physical)]])]
    ofResult (result (.object [])) = .error (.noLocation "C1" "m") ∧
      ofResult (result (.string "a.cpp")) = .error (.invalidLocation "C1" "m") := ⟨rfl, rfl⟩

end Finding

end BuildLint

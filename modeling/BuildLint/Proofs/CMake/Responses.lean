import BuildLint.Proofs.Action.Questions
import BuildLint.Proofs.CMake.Request
import BuildLint.Proofs.Json.Shapes

/-!
# Proofs/CMake/Responses — what an index of another shape does

A reply is refused with a failure where something is missing from it.  Some steps into it stop
otherwise: where the reply has a value of one shape and the step needs another.  In an index these
are the responses, which are searched one by one for those that answer this client.

* `Fault.Refuses` — the failures that build data are refused with.
* `Index.StopsAt`, `Index.Stops` — the responses, and the indexes, that stop the search.
* `Index.ofReply_stops_iff` — reading an index stops exactly there.
-/

namespace BuildLint

/-- **A failure that build data are refused with.** -/
def Fault.Refuses : Fault → Prop
  | .failure (.configuration _) => True
  | .failure (.metadata _) => True
  | .failure (.toolchain _) => True
  | _ => False

theorem Fault.not_refuses_access (f : Json.AccessFault) : ¬(Fault.access f).Refuses := id

namespace Index

variable {base kind path : Text} {path? : Option Text} {response responses document : Json}
  {f : Json.AccessFault}

/-- **A response answers** a kind of request and names a document. -/
structure Answers (kind : Text) (response document : Json) : Prop where
  hasKind : response.field "kind" = .ok (.string kind)
  names : response.field "jsonFile" = .ok document
  isTruthy : document.isTruthy = true

/-- A response is passed over: it is an object and does not answer. -/
def Passes (kind : Text) (response : Json) : Prop :=
  response.IsObject ∧ ∀ document, ¬Answers kind response document

/-- **How a response stops the search** for an answer: it is no object, or what it names is no
text. -/
inductive StopsAt (kind : Text) (response : Json) : Json.AccessFault → Prop
  | response (h : ¬response.IsObject) : StopsAt kind response .notAnObject
  | document {document : Json} (h : Answers kind response document) (hd : ¬document.IsText) :
      StopsAt kind response .wrongShape

theorem Answers.unique {other : Json} (h : Answers kind response document)
    (hother : Answers kind response other) : document = other :=
  Except.ok.inj (h.names.symm.trans hother.names)

theorem Answers.isObject (h : Answers kind response document) : response.IsObject :=
  Json.isObject_of_field h.hasKind

/-- **One step of the search.** -/
theorem responsePath?_cons (base kind : Text) (response : Json) (rest : List Json) :
    (¬response.IsObject ∧
      responsePath? base kind (response :: rest) = .error .notAnObject) ∨
    (∃ document, Answers kind response document ∧
      responsePath? base kind (response :: rest) = do
        return some (Path.below (Path.tidy base) (← document.text))) ∨
    (Passes kind response ∧
      responsePath? base kind (response :: rest) = responsePath? base kind rest) := by
  by_cases hobject : response.IsObject
  · obtain ⟨k, hk⟩ := Json.exists_lookup hobject "kind"
    obtain ⟨d, hd⟩ := Json.exists_lookup hobject "jsonFile"
    have hpasses : (k ≠ .string kind ∨ d.isTruthy = false) → Passes kind response := by
      refine fun h => ⟨hobject, fun document hanswers => ?_⟩
      rcases h with h | h
      · have hfound := (Json.lookup_eq_ok (by simp)).2 hanswers.hasKind
        exact h (Except.ok.inj (hk.symm.trans hfound))
      · have hfound := (Json.lookup_eq_ok (Json.ne_null_of_isTruthy hanswers.isTruthy)).2
          hanswers.names
        obtain rfl := Except.ok.inj (hd.symm.trans hfound)
        rw [hanswers.isTruthy] at h
        cases h
    rw [responsePath?, hk]
    cases k with
    | string k =>
      by_cases hkind : k = kind
      · subst hkind
        by_cases htruthy : d.isTruthy = true
        · refine .inr (.inl ⟨d, ⟨(Json.lookup_eq_ok (by simp)).1 hk,
            (Json.lookup_eq_ok (Json.ne_null_of_isTruthy htruthy)).1 hd, htruthy⟩, ?_⟩)
          change (if k = k then _ else _) = _
          rw [if_pos rfl, hd]
          change (if d.isTruthy then _ else _) = _
          rw [if_pos htruthy]
        · refine .inr (.inr ⟨hpasses (.inr (by simpa using htruthy)), ?_⟩)
          change (if k = k then _ else _) = _
          rw [if_pos rfl, hd]
          change (if d.isTruthy then _ else _) = _
          rw [if_neg htruthy]
      · refine .inr (.inr ⟨hpasses (.inl (by simpa using hkind)), ?_⟩)
        change (if k = kind then _ else _) = _
        rw [if_neg hkind]
    | _ => exact .inr (.inr ⟨hpasses (.inl (by simp)), rfl⟩)
  · refine .inl ⟨hobject, ?_⟩
    rw [responsePath?, Json.lookup_eq_error.2 ⟨hobject, rfl⟩]
    rfl

/-- **A search stops** at the first response that it does not pass over, if that stops it. -/
theorem responsePath?_eq_error {responses : List Json} :
    responsePath? base kind responses = .error f ↔
      Steps.First (Passes kind) (StopsAt kind · f) responses := by
  induction responses with
  | nil => exact ⟨fun h => (nomatch h), fun h => absurd h Steps.not_first_nil⟩
  | cons response rest ih =>
    rw [Steps.first_cons]
    rcases responsePath?_cons base kind response rest with
      ⟨hobject, h⟩ | ⟨document, hanswers, h⟩ | ⟨hpasses, h⟩
    · rw [h]
      constructor
      · rintro ⟨⟩
        exact .inl (.response hobject)
      · rintro (hstops | ⟨hpasses, -⟩)
        · cases hstops with
          | response => rfl
          | document hanswers => exact absurd hanswers.isObject hobject
        · exact absurd hpasses.1 hobject
    · rw [h, Steps.bind_eq_error, Json.text_eq_error]
      constructor
      · rintro (⟨htext, rfl⟩ | ⟨_, -, ⟨⟩⟩)
        exact .inl (.document hanswers htext)
      · rintro (hstops | ⟨hpasses, -⟩)
        · cases hstops with
          | response hobject => exact absurd hanswers.isObject hobject
          | document hother htext =>
            obtain rfl := hother.unique hanswers
            exact .inl ⟨htext, rfl⟩
        · exact absurd hanswers (hpasses.2 document)
    · rw [h, ih]
      refine ⟨fun hrest => .inr ⟨hpasses, hrest⟩, ?_⟩
      rintro (hstops | ⟨-, hrest⟩)
      · cases hstops with
        | response hobject => exact absurd hpasses.1 hobject
        | document hanswers => exact absurd hanswers (hpasses.2 _)
      · exact hrest

/-- **How an index document stops its reading**: its responses cannot be gone through, or the search
for the answer with the code model stops, or after it the one for the answer with the toolchains. -/
inductive Stops (document : Json) : Json.AccessFault → Prop
  | responses {responses version : Json} (h : parts document = .ok (responses, version))
      (hr : ¬responses.IsIterable) : Stops document .wrongShape
  | codemodel {responses version : Json} {items : List Json} {f : Json.AccessFault}
      (h : parts document = .ok (responses, version)) (hr : responses.iterate = .ok items)
      (hf : Steps.First (Passes "codemodel") (StopsAt "codemodel" · f) items) : Stops document f
  | toolchains {responses version : Json} {items : List Json} {f : Json.AccessFault}
      (h : parts document = .ok (responses, version)) (hr : responses.iterate = .ok items)
      (hc : ∀ f, ¬Steps.First (Passes "codemodel") (StopsAt "codemodel" · f) items)
      (hf : Steps.First (Passes "toolchains") (StopsAt "toolchains" · f) items) : Stops document f

/-- A response that is not passed over answers, or it is no object. -/
theorem responsePath?_ne_error {items : List Json} (h : responsePath? base kind items = .ok path?) :
    ∀ f, ¬Steps.First (Passes kind) (StopsAt kind · f) items := by
  intro f hf
  rw [responsePath?_eq_error.2 hf] at h
  cases h

/-- **Reading an index stops** exactly as its responses say. -/
theorem ofReply_stops_iff : ofReply base document path = .error (.access f) ↔ Stops document f := by
  rw [ofReply]
  cases hparts : parts document with
  | error fault =>
    refine ⟨fun h => (nomatch h), fun h => ?_⟩
    cases h <;> simp_all
  | ok both =>
    obtain ⟨responses, version⟩ := both
    simp only [Steps.mapError_eq_error, Fault.access.injEq, exists_eq_right, Steps.bind_eq_error,
      Json.iterate_eq_error, responsePath?_eq_error]
    constructor
    · rintro (⟨hr, rfl⟩ | ⟨items, hitems, hf | ⟨codemodel, hc, ⟨hr, rfl⟩ | ⟨items', hitems', h⟩⟩⟩)
      · exact .responses hparts hr
      · exact .codemodel hparts hitems hf
      · exact .responses hparts hr
      · obtain rfl := Except.ok.inj (hitems.symm.trans hitems')
        rcases h with hf | ⟨_, -, ⟨⟩⟩
        exact .toolchains hparts hitems (responsePath?_ne_error hc) hf
    · intro h
      cases h with
      | responses h hr =>
        obtain ⟨rfl, rfl⟩ := Prod.mk.inj (Except.ok.inj (hparts.symm.trans h))
        exact .inl ⟨hr, rfl⟩
      | codemodel h hr hf =>
        obtain ⟨rfl, rfl⟩ := Prod.mk.inj (Except.ok.inj (hparts.symm.trans h))
        exact .inr ⟨_, hr, .inl hf⟩
      | toolchains h hr hc hf =>
        obtain ⟨rfl, rfl⟩ := Prod.mk.inj (Except.ok.inj (hparts.symm.trans h))
        cases hfound : responsePath? base "codemodel" _ with
        | error f => exact absurd (responsePath?_eq_error.1 hfound) (hc f)
        | ok found => exact .inr ⟨_, hr, .inr ⟨found, hfound, .inr ⟨_, hr, .inl hf⟩⟩⟩

theorem refuses_of_ofReply {fault : Fault} (h : ofReply base document path = .error fault) :
    fault.Refuses ∨ ∃ f, fault = .access f := by
  rw [ofReply] at h
  split at h
  · cases h
    exact .inl trivial
  · obtain ⟨f, -, rfl⟩ := Steps.mapError_eq_error.1 h
    exact .inr ⟨f, rfl⟩

/-- **What loading an index gives**: what the newest index document says. -/
theorem load_result (apiDirectory : Text) (host : Host) (w : World) :
    (load apiDirectory).result host w =
      match newest? w.disk (Path.below (Path.tidy apiDirectory) "reply") with
      | none => .error (.failure (.metadata .noIndex))
      | some path => ReplyFile.read w.disk path >>= fun document =>
          ofReply (Path.below (Path.tidy apiDirectory) "reply") document path := by
  rw [load, Action.result, Action.bind_apply, Action.disk_apply]
  cases hnewest : newest? w.disk (Path.below (Path.tidy apiDirectory) "reply") with
  | none => simp only [hnewest, Action.fail_apply]
  | some path =>
    simp only [hnewest, Action.bind_apply, Action.consult_apply]
    cases hread : ReplyFile.read w.disk path with
    | error fault => rfl
    | ok document =>
      change _ = ofReply (Path.below (Path.tidy apiDirectory) "reply") document path
      simp only [Action.ofExcept_ok_apply]
      cases ofReply (Path.below (Path.tidy apiDirectory) "reply") document path <;> rfl

end Index

end BuildLint

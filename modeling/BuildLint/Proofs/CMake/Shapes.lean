import BuildLint.Proofs.CMake.Exclusion
import BuildLint.Proofs.CMake.Responses

/-!
# Proofs/CMake/Shapes — what a code model of another shape does

A code model is refused where a part is missing from it, and where a part is no object or no list
that has to be one; but a configuration that is asked for its name, the list of targets and the name
of a target's file are taken to be what they should be, and stop the reading if they are not.

* `Configuration.Stops`, `Configuration.fails_of_select` — how the choice of a configuration fails.
* `CompileUnit.Stops`, `load_stops_iff` — how reading the units stops.
-/

namespace BuildLint

/-! ## The configurations of a code model -/

namespace Configuration

variable {name : Text} {configuration configurations : Json} {items : List Json}
  {f : Json.AccessFault} {fault : Fault}

theorem isNamed_eq_error :
    isNamed name configuration = .error f ↔ ¬configuration.IsObject ∧ f = .notAnObject := by
  rw [isNamed, Steps.bind_eq_error, Json.lookup_eq_error]
  refine or_iff_left ?_
  rintro ⟨v, -, h⟩
  split at h <;> cases h

/-- **Every configuration is asked for its name**, so each has to be an object. -/
theorem named_eq_error :
    named name items = .error f ↔ (∃ c ∈ items, ¬c.IsObject) ∧ f = .notAnObject := by
  induction items with
  | nil =>
    refine ⟨fun h => (nomatch h), ?_⟩
    rintro ⟨⟨c, hc, -⟩, -⟩
    exact absurd hc List.not_mem_nil
  | cons c rest ih =>
    rw [named, Steps.bind_eq_error, isNamed_eq_error]
    constructor
    · rintro (⟨hc, rfl⟩ | ⟨keep, -, h⟩)
      · exact ⟨⟨c, List.mem_cons_self, hc⟩, rfl⟩
      · rcases Steps.bind_eq_error.1 h with h | ⟨_, -, ⟨⟩⟩
        obtain ⟨⟨b, hb, hobject⟩, rfl⟩ := ih.1 h
        exact ⟨⟨b, List.mem_cons_of_mem c hb, hobject⟩, rfl⟩
    · rintro ⟨⟨b, hb, hobject⟩, rfl⟩
      by_cases hc : c.IsObject
      · have hrest : b ∈ rest := by
          rcases List.mem_cons.1 hb with rfl | hb
          · exact absurd hc hobject
          · exact hb
        cases hkeep : isNamed name c with
        | error f => exact absurd hc (isNamed_eq_error.1 hkeep).1
        | ok keep =>
          exact .inr ⟨keep, rfl, Steps.bind_eq_error.2 (.inl (ih.2 ⟨⟨b, hrest, hobject⟩, rfl⟩))⟩
      · exact .inl ⟨hc, rfl⟩

/-- **How configurations stop the choice** of one: a name is given, and one of those that are asked
for theirs is no object.  Of an object with one member nothing is asked, since the choice has been
refused by then. -/
structure Stops (name : Option Text) (configurations : Json) : Prop where
  given : name.getD [] ≠ []
  several : ∀ m, configurations ≠ .object [m]
  exists_not : ∃ items, configurations.iterate = .ok items ∧ ∃ c ∈ items, ¬c.IsObject

/-- The first of what can be gone through, except in an object. -/
theorem element_zero (h : configurations.iterate = .ok items) (hi : items ≠ []) :
    (configurations.IsObject ∧
      configurations.element (.int 0) = .error (.absent (.int 0))) ∨
    ∃ only rest, items = only :: rest ∧ ¬configurations.IsObject ∧
      configurations.element (.int 0) = .ok only := by
  cases configurations with
  | object members => exact .inl ⟨⟨members, rfl⟩, rfl⟩
  | array vs =>
    obtain rfl := Except.ok.inj h
    cases vs with
    | nil => exact absurd rfl hi
    | cons v vs => exact .inr ⟨v, vs, rfl, fun ⟨_, h⟩ => (nomatch h), rfl⟩
  | string s =>
    obtain rfl := Except.ok.inj h
    cases s with
    | nil => exact absurd rfl hi
    | cons c s => exact .inr ⟨_, _, rfl, fun ⟨_, h⟩ => (nomatch h), rfl⟩
  | _ => cases h

/-- **Choosing by name among several.** -/
theorem select_of_several (h : configurations.iterate = .ok items) (hi : 1 < items.length)
    (name : Option Text) :
    select configurations name =
      if name.getD [] = [] then .error (.failure (.configuration .configurationRequired))
      else step (named (name.getD []) items) >>= fun found =>
        match found with
        | [] => .error (.failure (.configuration .configurationUnknown))
        | configuration :: _ => .ok configuration := by
  have htruthy : configurations.isTruthy = true :=
    (Json.isTruthy_iff_of_iterate h).2 (List.ne_nil_of_length_pos (Nat.zero_lt_of_lt hi))
  have hcount : count configurations = .ok items.length := by
    rw [count, step, h]
    rfl
  rw [select, htruthy, hcount]
  change (if 1 < items.length then _ else _) = _
  rw [if_pos hi, h]
  rfl

/-- **Taking the only one**, unless another name is given. -/
theorem select_of_one (h : configurations.iterate = .ok items) (hi : items.length = 1)
    (name : Option Text) :
    select configurations name =
      step (configurations.element (.int 0)) >>= fun only =>
        if name.getD [] = [] then .ok only
        else step (isNamed (name.getD []) only) >>= fun fits =>
          if fits then .ok only
          else step (only.lookup "name") >>= fun n =>
            .error (.failure (.configuration (.configurationMismatch n))) := by
  have htruthy : configurations.isTruthy = true :=
    (Json.isTruthy_iff_of_iterate h).2 (List.ne_nil_of_length_pos (by omega))
  have hcount : count configurations = .ok 1 := by
    rw [count, step, h, ← hi]
    rfl
  rw [select, htruthy, hcount]
  rfl

/-- What cannot be gone through is refused, at the latest because it has no first item. -/
theorem select_of_not_iterable (h : ¬configurations.IsIterable) (name : Option Text) :
    select configurations name = .error (.failure (.metadata .noConfigurations)) ∨
      select configurations name = .error (.access .wrongShape) := by
  rw [select]
  cases configurations.isTruthy with
  | false => exact .inl rfl
  | true =>
    rw [count, step, Json.iterate_eq_error.2 ⟨h, rfl⟩]
    exact .inr rfl

/-- **How the choice of a configuration fails**: it is refused, or a part is missing or of the wrong
shape, or it stops as the configurations say. -/
inductive Fails (name : Option Text) (configurations : Json) : Fault → Prop
  | refused {fault : Fault} (h : fault.Refuses) : Fails name configurations fault
  | wrongShape : Fails name configurations (.access .wrongShape)
  | absent (key : Json) : Fails name configurations (.access (.absent key))
  | stops (h : Stops name configurations) : Fails name configurations (.access .notAnObject)

theorem fails_of_one {name : Option Text} (hitems : configurations.iterate = .ok items)
    (hlength : items.length = 1) (h : select configurations name = .error fault) :
    Fails name configurations fault := by
  rw [select_of_one hitems hlength, Steps.bind_eq_error] at h
  have hne : items ≠ [] := List.ne_nil_of_length_pos (by omega)
  rcases element_zero hitems hne with ⟨-, helement⟩ | ⟨only, rest, rfl, hobject, helement⟩
  · rw [helement] at h
    rcases h with h | ⟨_, ⟨⟩, -⟩
    obtain rfl := Except.error.inj h
    exact .absent _
  · rw [helement] at h
    rcases h with ⟨⟨⟩⟩ | ⟨_, honly, h⟩
    obtain rfl := Except.ok.inj honly
    split at h
    · cases h
    have hgiven : name.getD [] ≠ [] := ‹_›
    rcases Steps.bind_eq_error.1 h with h | ⟨fits, hfits, h⟩
    · obtain ⟨f, hf, rfl⟩ := Steps.mapError_eq_error.1 h
      obtain ⟨hnot, rfl⟩ := isNamed_eq_error.1 hf
      exact .stops ⟨hgiven, fun m hm => hobject ⟨_, hm⟩, _, hitems, _, List.mem_cons_self, hnot⟩
    · split at h
      · cases h
      rcases Steps.bind_eq_error.1 h with h | ⟨n, -, h⟩
      · -- who has been asked for a name is an object
        obtain ⟨f, hf, rfl⟩ := Steps.mapError_eq_error.1 h
        have hnot : isNamed (name.getD []) only = .error f :=
          isNamed_eq_error.2 (Json.lookup_eq_error.1 hf)
        rw [step, Steps.ok_of_mapError, hnot] at hfits
        cases hfits
      · cases h
        exact .refused trivial

theorem fails_of_several {name : Option Text} (hitems : configurations.iterate = .ok items)
    (hlength : 1 < items.length) (h : select configurations name = .error fault) :
    Fails name configurations fault := by
  rw [select_of_several hitems hlength] at h
  split at h
  · cases h
    exact .refused trivial
  have hgiven : name.getD [] ≠ [] := ‹_›
  rcases Steps.bind_eq_error.1 h with h | ⟨found, -, h⟩
  · obtain ⟨f, hf, rfl⟩ := Steps.mapError_eq_error.1 h
    obtain ⟨hnot, rfl⟩ := named_eq_error.1 hf
    refine .stops ⟨hgiven, ?_, _, hitems, hnot⟩
    rintro m rfl
    obtain rfl := Except.ok.inj hitems
    simp at hlength
  · split at h
    · cases h
      exact .refused trivial
    · cases h

theorem fails_of_select {name : Option Text} (h : select configurations name = .error fault) :
    Fails name configurations fault := by
  by_cases hiterable : configurations.IsIterable
  · obtain ⟨items, hitems⟩ := Json.exists_iterate hiterable
    rcases Nat.lt_trichotomy items.length 1 with hlength | hlength | hlength
    · obtain rfl : items = [] := List.length_eq_zero_iff.1 (by omega)
      have htruthy : configurations.isTruthy = false := by
        rw [Bool.eq_false_iff]
        exact fun ht => (Json.isTruthy_iff_of_iterate hitems).1 ht rfl
      rw [select, htruthy] at h
      cases h
      exact .refused trivial
    · exact fails_of_one hitems hlength h
    · exact fails_of_several hitems hlength h
  · rcases select_of_not_iterable hiterable name with hs | hs
    · rw [hs] at h
      cases h
      exact .refused trivial
    · rw [hs] at h
      obtain rfl := Except.error.inj h
      exact .wrongShape

/-- **The choice stops** where it has to ask what is no object for its name. -/
theorem select_of_stops {name : Option Text} (h : Stops name configurations) :
    select configurations name = .error (.access .notAnObject) := by
  obtain ⟨hgiven, hseveral, items, hitems, c, hc, hobject⟩ := h
  have hpositive : 0 < items.length := List.length_pos_of_mem hc
  rcases Nat.lt_or_ge 1 items.length with hlength | hlength
  · rw [select_of_several hitems hlength, if_neg hgiven, step,
      named_eq_error.2 ⟨⟨c, hc, hobject⟩, rfl⟩]
    rfl
  · rw [select_of_one hitems (by omega)]
    rcases element_zero hitems (List.ne_nil_of_mem hc) with
      ⟨⟨members, rfl⟩, -⟩ | ⟨only, rest, rfl, -, helement⟩
    · -- an object with one member is excluded
      obtain rfl := Except.ok.inj hitems
      obtain ⟨m, rfl⟩ := List.length_eq_one_iff.1 (show members.length = 1 by simp_all; omega)
      exact absurd rfl (hseveral m)
    · obtain rfl : rest = [] := List.length_eq_zero_iff.1 (by simpa using hlength)
      obtain rfl := List.mem_singleton.1 hc
      rw [helement]
      change (if name.getD [] = [] then _ else _) = _
      rw [if_neg hgiven, step, isNamed_eq_error.2 ⟨hobject, rfl⟩]
      rfl

end Configuration

/-! ## The code model -/

namespace CompileUnit

variable {d : Disk} {base : Text} {codemodel configuration : Option Text} {excluded : List Text}
  {document root directories entry : Json} {f : Json.AccessFault} {fault : Fault}

/-- The part of a code model that names the root of the sources. -/
def rootOf (document : Json) : Json.Access Json := do (← document.field "paths").field "source"

/-- **How a code model stops the reading of its units**: the choice of a configuration stops, the
targets of the one that is chosen cannot be gone through, or a target that is not excluded has a
file whose name is no text, and all targets before it can be read. -/
inductive Stops (d : Disk) (base : Text) (configuration : Option Text) (excluded : List Text)
    (document : Json) : Json.AccessFault → Prop
  | configuration {root configurations : Json} (hroot : rootOf document = .ok root)
      (hc : document.field "configurations" = .ok configurations)
      (h : Configuration.Stops configuration configurations) :
      Stops d base configuration excluded document .notAnObject
  | targets {s : Selection} (hs : selection document configuration = .ok s)
      (h : ¬s.targets.IsIterable) : Stops d base configuration excluded document .wrongShape
  | file {s : Selection} {entries : List Json} (hs : selection document configuration = .ok s)
      (ht : s.targets.iterate = .ok entries)
      (h : Steps.First
        (fun v => ∃ units, ofEntry d base excluded s.root s.directories v = .ok units)
        (fun v => ∃ t, targetEntry s.root s.directories v = .ok t ∧
          Path.isCovered excluded t.directory = false ∧ ¬t.file.IsText) entries) :
      Stops d base configuration excluded document .wrongShape

theorem refuses_of_isMissing (h : f.IsMissing) : (codemodelFault (.access f)).Refuses := by
  cases f with
  | absent key => trivial
  | wrongShape => trivial
  | _ => cases h

theorem rootOf_eq_error (h : rootOf document = .error f) : f.IsMissing := by
  rcases Steps.bind_eq_error.1 h with h | ⟨_, -, h⟩
  · exact Json.field_eq_error h
  · exact Json.field_eq_error h

/-- **Selecting a configuration fails** with a failure, or the choice of it stops. -/
theorem fails_of_selection (h : selection document configuration = .error fault) :
    fault.Refuses ∨ fault = .access .notAnObject ∧
      ∀ d base excluded, Stops d base configuration excluded document .notAnObject := by
  obtain ⟨fault', hchoice, rfl⟩ := Steps.mapError_eq_error.1 h
  have hfield : ∀ {v : Json} {key : Text}, Configuration.step (v.field key) = .error fault' →
      (codemodelFault fault').Refuses := by
    intro v key h
    obtain ⟨f, hf, rfl⟩ := Steps.mapError_eq_error.1 h
    exact refuses_of_isMissing (Json.field_eq_error hf)
  rcases Steps.bind_eq_error.1 hchoice with h | ⟨root, hroot, h⟩
  · obtain ⟨f, hf, rfl⟩ := Steps.mapError_eq_error.1 h
    exact .inl (refuses_of_isMissing (rootOf_eq_error hf))
  rcases Steps.bind_eq_error.1 h with h | ⟨configurations, hc, h⟩
  · exact .inl (hfield h)
  rcases Steps.bind_eq_error.1 h with h | ⟨selected, -, h⟩
  · cases Configuration.fails_of_select h with
    | refused h =>
      refine .inl ?_
      cases fault' with
      | failure failure => exact h
      | _ => cases h
    | wrongShape => exact .inl trivial
    | absent key => exact .inl trivial
    | stops hstops =>
      exact .inr ⟨rfl, fun _ _ _ =>
        .configuration (Steps.ok_of_mapError.1 hroot) (Steps.ok_of_mapError.1 hc) hstops⟩
  rcases Steps.bind_eq_error.1 h with h | ⟨directories, -, h⟩
  · exact .inl (hfield h)
  rcases Steps.bind_eq_error.1 h with h | ⟨targets, -, h⟩
  · exact .inl (hfield h)
  · cases h

theorem selection_of_stops {root configurations : Json} (hroot : rootOf document = .ok root)
    (hc : document.field "configurations" = .ok configurations)
    (h : Configuration.Stops configuration configurations) :
    selection document configuration = .error (.access .notAnObject) := by
  refine Steps.mapError_eq_error.2 ⟨.access .notAnObject, ?_, rfl⟩
  refine Steps.bind_eq_error.2 (.inr ⟨root, Steps.ok_of_mapError.2 hroot, ?_⟩)
  refine Steps.bind_eq_error.2 (.inr ⟨configurations, Steps.ok_of_mapError.2 hc, ?_⟩)
  exact Steps.bind_eq_error.2 (.inl (Configuration.select_of_stops h))

/-- **How one target fails**: with a failure, for a file that cannot be read, or because the name of
its file is no text. -/
theorem fails_of_ofEntry (h : ofEntry d base excluded root directories entry = .error fault) :
    fault.Refuses ∨ (∃ path, ReplyFile.read d path = .error fault) ∨
      fault = .access .wrongShape ∧ ∃ t, targetEntry root directories entry = .ok t ∧
        Path.isCovered excluded t.directory = false ∧ ¬t.file.IsText := by
  rw [ofEntry] at h
  cases hentry : targetEntry root directories entry with
  | error f =>
    rw [hentry] at h
    cases h
    exact .inl trivial
  | ok t =>
    simp only [hentry] at h
    cases hcovered : Path.isCovered excluded t.directory with
    | true => simp [hcovered] at h
    | false =>
      simp only [hcovered, Bool.false_eq_true, if_false] at h
      cases hfile : t.file with
      | string file =>
        simp only [hfile] at h
        rcases Steps.bind_eq_error.1 h with h | ⟨reply, -, h⟩
        · exact .inr (.inl ⟨_, h⟩)
        · split at h
          · cases h
            exact .inl trivial
          · cases h
      | _ =>
        simp only [hfile, Except.error.injEq] at h
        exact .inr (.inr ⟨h.symm, t, rfl, hcovered, by simp [Json.IsText, hfile]⟩)

/-- A target whose file has no name stops the reading. -/
theorem ofEntry_of_not_isText {t : TargetEntry} (ht : targetEntry root directories entry = .ok t)
    (hcovered : Path.isCovered excluded t.directory = false) (hfile : ¬t.file.IsText) :
    ofEntry d base excluded root directories entry = .error (.access .wrongShape) := by
  simp only [ofEntry, ht, hcovered, Bool.false_eq_true, if_false]
  split
  · rename_i file hstring
    exact absurd ⟨file, hstring⟩ hfile
  · rfl

theorem not_readFault (path : Text) (f : Json.AccessFault) :
    ReplyFile.read d path ≠ .error (.access f) := by
  intro h
  rcases fault_of_read h with ⟨_, h⟩ | h | h <;> cases h

theorem ofEntry_eq_access (h : ofEntry d base excluded root directories entry = .error (.access f)) :
    f = .wrongShape ∧ ∃ t, targetEntry root directories entry = .ok t ∧
      Path.isCovered excluded t.directory = false ∧ ¬t.file.IsText := by
  rcases fails_of_ofEntry h with h | ⟨path, h⟩ | ⟨h, ht⟩
  · exact absurd h (Fault.not_refuses_access f)
  · exact absurd h (not_readFault path f)
  · exact ⟨Fault.access.inj h, ht⟩

theorem stops_of_load (h : load d codemodel configuration excluded = .error (.access f)) :
    ∃ document, ReplyFile.read d (codemodel.getD []) = .ok document ∧
      Stops d (replyDirectory codemodel) configuration excluded document f := by
  rw [load] at h
  split at h
  · cases h
  rcases Steps.bind_eq_error.1 h with h | ⟨document, hread, h⟩
  · exact absurd h (not_readFault _ f)
  refine ⟨document, hread, ?_⟩
  rcases Steps.bind_eq_error.1 h with h | ⟨s, hs, h⟩
  · rcases fails_of_selection h with h | ⟨h, hstops⟩
    · exact absurd h (Fault.not_refuses_access f)
    · obtain rfl := Fault.access.inj h
      exact hstops _ _ _
  rcases Steps.bind_eq_error.1 h with h | ⟨entries, ht, h⟩
  · obtain ⟨f, hf, ⟨⟩⟩ := Steps.mapError_eq_error.1 h
    obtain ⟨hiterable, rfl⟩ := Json.iterate_eq_error.1 hf
    exact .targets hs hiterable
  rcases Steps.bind_eq_error.1 h with h | ⟨units, -, h⟩
  · have hfirst := Steps.mapM_eq_error.1 h
    obtain ⟨v, -, hv⟩ := hfirst.exists
    obtain ⟨rfl, -⟩ := ofEntry_eq_access hv
    exact .file hs (Steps.ok_of_mapError.1 ht)
      (hfirst.mono (fun _ h => h) fun _ hv => (ofEntry_eq_access hv).2)
  · cases h

theorem load_of_stops (hread : ReplyFile.read d (codemodel.getD []) = .ok document)
    (h : Stops d (replyDirectory codemodel) configuration excluded document f) :
    load d codemodel configuration excluded = .error (.access f) := by
  cases h with
  | configuration hroot hc h =>
    refine (load_of_read hread configuration).trans ?_
    exact Steps.bind_eq_error.2 (.inl (selection_of_stops hroot hc h))
  | targets hs h =>
    refine (load_of_read hread configuration).trans ?_
    refine Steps.bind_eq_error.2 (.inr ⟨_, hs, Steps.bind_eq_error.2 (.inl ?_)⟩)
    rw [Configuration.step, Json.iterate_eq_error.2 ⟨h, rfl⟩]
    rfl
  | file hs ht h =>
    refine load_eq_error_of_first ⟨document, hread, hs⟩ ht (h.mono (fun _ h => h) ?_)
    rintro v ⟨t, htarget, hcovered, hfile⟩
    exact ofEntry_of_not_isText htarget hcovered hfile

/-- **Loading units stops** exactly as the code model says. -/
theorem load_stops_iff : load d codemodel configuration excluded = .error (.access f) ↔
    ∃ document, ReplyFile.read d (codemodel.getD []) = .ok document ∧
      Stops d (replyDirectory codemodel) configuration excluded document f :=
  ⟨stops_of_load, fun ⟨_, hread, h⟩ => load_of_stops hread h⟩

/-- **All other faults** of loading units are failures, or come from a file that cannot be read. -/
theorem fails_of_load (h : load d codemodel configuration excluded = .error fault) :
    fault.Refuses ∨ (∃ f, fault = .access f) ∨ ∃ path, ReplyFile.read d path = .error fault := by
  rw [load] at h
  split at h
  · cases h
    exact .inl trivial
  rcases Steps.bind_eq_error.1 h with h | ⟨document, hread, h⟩
  · exact .inr (.inr ⟨_, h⟩)
  rcases Steps.bind_eq_error.1 h with h | ⟨s, hs, h⟩
  · exact (fails_of_selection h).imp_right fun h => .inl ⟨_, h.1⟩
  rcases Steps.bind_eq_error.1 h with h | ⟨entries, ht, h⟩
  · obtain ⟨f, -, rfl⟩ := Steps.mapError_eq_error.1 h
    exact .inr (.inl ⟨f, rfl⟩)
  rcases Steps.bind_eq_error.1 h with h | ⟨units, -, h⟩
  · obtain ⟨v, -, hv⟩ := (Steps.mapM_eq_error.1 h).exists
    rcases fails_of_ofEntry hv with h | h | ⟨h, -⟩
    · exact .inl h
    · exact .inr (.inr h)
    · exact .inr (.inl ⟨_, h⟩)
  · cases h

end CompileUnit

end BuildLint

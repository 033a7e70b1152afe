import BuildLint.Proofs.CMake.Shapes
import BuildLint.Proofs.Toolchain.Placement

/-!
# Proofs/Toolchain/Shapes — what a toolchains document of another shape does

The entries of the document are searched for each language, and the entry that serves it is read.
Both take the entries, their compilers and what is said about these to be of the documented shape,
and stop where they are not.

* `Toolchain.StopsAt`, `Toolchains.Stops` — the entries, and the documents, that stop the search.
* `Toolchains.load_stops_iff` — loading toolchains stops exactly there.
-/

namespace BuildLint

namespace Toolchain

variable {language : Text} {entry compiler : Json} {f : Json.AccessFault}

/-- **An entry serves a language**: it is for it, and its compiler can analyse. -/
structure Serves (language : Text) (entry compiler : Json) : Prop where
  isFor : entry.field "language" = .ok (.string language)
  hasCompiler : entry.field "compiler" = .ok compiler
  analyses : compiler.field "id" = .ok (.string analysingCompiler)

/-- An entry for a language says of its compiler what is no object. -/
structure Misdescribes (language : Text) (entry compiler : Json) : Prop where
  isFor : entry.field "language" = .ok (.string language)
  hasCompiler : entry.field "compiler" = .ok compiler
  isTruthy : compiler.isTruthy = true
  not_isObject : ¬compiler.IsObject

/-- **What is said about a compiler's headers stops the reading**: it is no object, or the headers
are not listed. -/
inductive HeadersStop (compiler : Json) : Json.AccessFault → Prop
  | implicit {implicit : Json} (hi : compiler.field "implicit" = .ok implicit)
      (ht : implicit.isTruthy = true) (ho : ¬implicit.IsObject) :
      HeadersStop compiler .notAnObject
  | directories {implicit directories : Json} (hi : compiler.field "implicit" = .ok implicit)
      (hd : implicit.field "includeDirectories" = .ok directories)
      (ht : directories.isTruthy = true) (hd' : ¬directories.IsIterable) :
      HeadersStop compiler .wrongShape

/-- **How an entry stops the search** for the toolchain of a language: it is no object, or its
compiler is none; or it serves the language, and the path of its compiler is no text, or it is a
place that is known and the compiler's headers stop the reading. -/
inductive StopsAt (language : Text) (entry : Json) : Json.AccessFault → Prop
  | entry (h : ¬entry.IsObject) : StopsAt language entry .notAnObject
  | compiler {compiler : Json} (h : Misdescribes language entry compiler) :
      StopsAt language entry .notAnObject
  | path {compiler path : Json} (h : Serves language entry compiler)
      (hp : compiler.field "path" = .ok path) (ht : path.isTruthy = true) (hs : ¬path.IsText) :
      StopsAt language entry .wrongShape
  | headers {compiler : Json} {path : Text} {layout : Layout} {f : Json.AccessFault}
      (h : Serves language entry compiler) (hp : compiler.field "path" = .ok (.string path))
      (hl : Layout.ofPath path = .ok layout) (hf : HeadersStop compiler f) :
      StopsAt language entry f

/-- An entry is passed over: it neither serves a language nor stops the search. -/
def Passes (language : Text) (entry : Json) : Prop :=
  (∀ f, ¬StopsAt language entry f) ∧ ∀ compiler, ¬Serves language entry compiler

/-! ## Whether an entry serves a language -/

theorem compilerOf_of_field (h : entry.field "compiler" = .ok compiler)
    (ht : compiler.isTruthy = true) : compilerOf entry = .ok compiler := by
  rw [compilerOf, (Json.lookup_eq_ok (Json.ne_null_of_isTruthy ht)).2 h]
  exact congrArg Except.ok (Json.orElse_of_isTruthy ht _)

theorem Serves.compilerOf (h : Serves language entry compiler) :
    compilerOf entry = .ok compiler :=
  compilerOf_of_field h.hasCompiler (Json.isTruthy_of_field h.analyses)

theorem Serves.isObject (h : Serves language entry compiler) : entry.IsObject :=
  Json.isObject_of_field h.isFor

theorem Serves.unique {other : Json} (h : Serves language entry compiler)
    (hother : Serves language entry other) : compiler = other :=
  Except.ok.inj (h.hasCompiler.symm.trans hother.hasCompiler)

theorem Serves.not_misdescribes {other : Json} (h : Serves language entry compiler) :
    ¬Misdescribes language entry other := by
  intro hother
  obtain rfl := Except.ok.inj (h.hasCompiler.symm.trans hother.hasCompiler)
  exact hother.not_isObject (Json.isObject_of_field h.analyses)

theorem serves_of_language (h : entry.field "language" = .ok (.string language)) :
    serves language entry = compilerOf entry >>= fun compiler =>
      compiler.lookup "id" >>= fun id =>
        match id with
        | .string id => .ok (decide (id = analysingCompiler))
        | _ => .ok false := by
  rw [serves, (Json.lookup_eq_ok (by simp)).2 h]
  change (if language = language then _ else _) = _
  rw [if_pos rfl]
  rfl

theorem Serves.serves (h : Serves language entry compiler) : serves language entry = .ok true := by
  rw [serves_of_language h.isFor, h.compilerOf]
  change compiler.lookup "id" >>= _ = _
  rw [(Json.lookup_eq_ok (by simp)).2 h.analyses]
  exact congrArg Except.ok (decide_eq_true rfl)

theorem Misdescribes.serves (h : Misdescribes language entry compiler) :
    serves language entry = .error .notAnObject := by
  rw [serves_of_language h.isFor, compilerOf_of_field h.hasCompiler h.isTruthy]
  change compiler.lookup "id" >>= _ = _
  rw [Json.lookup_eq_error.2 ⟨h.not_isObject, rfl⟩]
  rfl

theorem serves_cases_of_language (hobject : entry.IsObject)
    (hfor : entry.field "language" = .ok (.string language)) :
    (serves language entry = .error .notAnObject ∧
      (¬entry.IsObject ∨ ∃ compiler, Misdescribes language entry compiler)) ∨
    (serves language entry = .ok true ∧ ∃ compiler, Serves language entry compiler) ∨
    serves language entry = .ok false := by
  obtain ⟨compiler, hlookup, ⟨-, hnone⟩ | ⟨hcompiler, htruthy, -⟩⟩ :=
    Json.exists_lookup_orElse hobject "compiler" (.object [])
  · refine .inr (.inr ?_)
    rw [serves_of_language hfor, Toolchain.compilerOf, hlookup]
    change (compiler.orElse (.object [])).lookup "id" >>= _ = _
    rw [hnone]
    rfl
  · by_cases hc : compiler.IsObject
    · obtain ⟨id, hid⟩ := Json.exists_lookup hc "id"
      by_cases hanalyses : id = .string analysingCompiler
      · subst hanalyses
        have hserves : Serves language entry compiler :=
          ⟨hfor, hcompiler, (Json.lookup_eq_ok (by simp)).1 hid⟩
        exact .inr (.inl ⟨hserves.serves, compiler, hserves⟩)
      · refine .inr (.inr ?_)
        rw [serves_of_language hfor, compilerOf_of_field hcompiler htruthy]
        change compiler.lookup "id" >>= _ = _
        rw [hid]
        cases id with
        | string id => exact congrArg Except.ok (decide_eq_false (by simpa using hanalyses))
        | _ => rfl
    · have hmis : Misdescribes language entry compiler := ⟨hfor, hcompiler, htruthy, hc⟩
      exact .inl ⟨hmis.serves, .inr ⟨compiler, hmis⟩⟩

theorem serves_of_not_isObject (h : ¬entry.IsObject) :
    serves language entry = .error .notAnObject := by
  rw [Toolchain.serves, Json.lookup_eq_error.2 ⟨h, rfl⟩]
  rfl

/-- **What the search asks of an entry**: it stops, finds that the entry serves, or goes on. -/
theorem serves_cases (language : Text) (entry : Json) :
    (serves language entry = .error .notAnObject ∧
      (¬entry.IsObject ∨ ∃ compiler, Misdescribes language entry compiler)) ∨
    (serves language entry = .ok true ∧ ∃ compiler, Serves language entry compiler) ∨
    serves language entry = .ok false := by
  by_cases hobject : entry.IsObject
  · obtain ⟨l, hl⟩ := Json.exists_lookup hobject "language"
    by_cases hlanguage : l = .string language
    · subst hlanguage
      have hfor := (Json.lookup_eq_ok (by simp)).1 hl
      exact serves_cases_of_language hobject hfor
    · refine .inr (.inr ?_)
      rw [Toolchain.serves, hl]
      cases l with
      | string l =>
        change (if l = language then _ else _) = _
        rw [if_neg (by simpa using hlanguage)]
        rfl
      | _ => rfl
  · exact .inl ⟨serves_of_not_isObject hobject, .inl hobject⟩

/-! ## Reading the entry that serves -/

/-- A list that may be missing stops the reading if it is something else. -/
theorem listed_eq_error {v : Json} {key : Text} : CompileUnit.listed v key = .error f ↔
    (¬v.IsObject ∧ f = .notAnObject) ∨
      ∃ w, v.field key = .ok w ∧ w.isTruthy = true ∧ ¬w.IsIterable ∧ f = .wrongShape := by
  rw [CompileUnit.listed, Steps.bind_eq_error, Json.lookup_eq_error]
  refine or_congr_right ?_
  constructor
  · rintro ⟨w, hw, h⟩
    obtain ⟨hiterable, rfl⟩ := Json.iterate_eq_error.1 h
    cases ht : w.isTruthy with
    | false =>
      rw [Json.orElse_of_not_isTruthy ht] at hiterable
      exact absurd (.inl ⟨[], rfl⟩) hiterable
    | true =>
      rw [Json.orElse_of_isTruthy ht] at hiterable
      exact ⟨w, (Json.lookup_eq_ok (Json.ne_null_of_isTruthy ht)).1 hw, ht, hiterable, rfl⟩
  · rintro ⟨w, hw, ht, hiterable, rfl⟩
    refine ⟨w, (Json.lookup_eq_ok (Json.ne_null_of_isTruthy ht)).2 hw, ?_⟩
    rw [Json.orElse_of_isTruthy ht]
    exact Json.iterate_eq_error.2 ⟨hiterable, rfl⟩

/-- **Whatever else is said about a compiler that serves** does not stop the reading. -/
theorem Serves.ofParts_eq_error (h : Serves language entry compiler) (path : Text)
    (layout : Layout) : ofParts entry compiler path layout = .error f ↔ HeadersStop compiler f := by
  have hobject := Json.isObject_of_field h.analyses
  obtain ⟨implicit, hlookup, himplicit⟩ :=
    Json.exists_lookup_orElse hobject "implicit" (.object [])
  obtain ⟨version, hversion⟩ := Json.exists_lookup? hobject "version"
  have hparts : ofParts entry compiler path layout =
      CompileUnit.listed (implicit.orElse (.object [])) "includeDirectories" >>= fun includes =>
        .ok ⟨.string language, path, version.getD (.string []), layout.toolset, layout.host,
          layout.target, includes.map (⟨·, true⟩)⟩ := by
    rw [ofParts, hlookup, h.isFor, hversion, CompileUnit.listed]
    change (implicit.orElse (.object [])).lookup "includeDirectories" >>= _ =
      ((implicit.orElse (.object [])).lookup "includeDirectories" >>= _) >>= _
    cases (implicit.orElse (.object [])).lookup "includeDirectories" <;> rfl
  rw [hparts, Steps.bind_eq_error, or_iff_left (by rintro ⟨_, -, ⟨⟩⟩), listed_eq_error]
  rcases himplicit with ⟨hfalsy, hnone⟩ | ⟨hfield, htruthy, hsame⟩
  · -- without headers nothing stops
    rw [hnone]
    constructor
    · rintro (⟨hobject, -⟩ | ⟨w, hw, -⟩)
      · exact absurd (Json.isObject_object []) hobject
      · cases hw
    · have hno : ∀ u, compiler.field "implicit" = .ok u → u.isTruthy ≠ true := by
        intro u hu ht
        rw [Json.eq_of_lookup hlookup hu ht, ht] at hfalsy
        cases hfalsy
      intro h
      cases h with
      | implicit hi ht => exact absurd ht (hno _ hi)
      | directories hi hd => exact absurd (Json.isTruthy_of_field hd) (hno _ hi)
  · rw [hsame]
    constructor
    · rintro (⟨hnot, rfl⟩ | ⟨w, hw, ht, hiterable, rfl⟩)
      · exact .implicit hfield htruthy hnot
      · exact .directories hfield hw ht hiterable
    · intro h
      cases h with
      | implicit hi ht ho =>
        obtain rfl := Except.ok.inj (hfield.symm.trans hi)
        exact .inl ⟨ho, rfl⟩
      | directories hi hd ht hd' =>
        obtain rfl := Except.ok.inj (hfield.symm.trans hi)
        exact .inr ⟨_, hd, ht, hd', rfl⟩

theorem ofPath_nil : Layout.ofPath [] = .error .pathTooShort := by decide +kernel

/-- **Reading the entry that serves** goes as far as the layout, or stops. -/
theorem Serves.ofReply_eq (h : Serves language entry compiler) {path : Json}
    (hp : compiler.lookup "path" = .ok path) (ht : path.isTruthy = true) :
    ofReply entry = Configuration.step path.text >>= fun path =>
      match Layout.ofPath path with
      | .error error => .error (.failure (.toolchain (.unknownLayout error path)))
      | .ok layout => Configuration.step (ofParts entry compiler path layout) := by
  rw [ofReply, h.compilerOf]
  change (Configuration.step (compiler.lookup "path") >>= _) = _
  rw [hp]
  change (if !path.isTruthy then _ else _) = _
  rw [ht]
  rfl

theorem Serves.ofReply_of_not_isTruthy (h : Serves language entry compiler) {path : Json}
    (hp : compiler.lookup "path" = .ok path) (ht : path.isTruthy = false) :
    ∃ cause, ofReply entry = .error (.failure (.toolchain cause)) := by
  rw [ofReply, h.compilerOf]
  change ∃ cause, (Configuration.step (compiler.lookup "path") >>= _) = _
  rw [hp]
  change ∃ cause, (if !path.isTruthy then _ else _) = _
  rw [ht, (Json.lookup_eq_ok (by simp)).2 h.isFor]
  exact ⟨_, rfl⟩

/-- **Reading the entry that serves stops** as the entry says. -/
theorem Serves.ofReply_stops_iff (h : Serves language entry compiler) :
    ofReply entry = .error (.access f) ↔ StopsAt language entry f := by
  obtain ⟨p, hp⟩ := Json.exists_lookup (Json.isObject_of_field h.analyses) "path"
  constructor
  · intro hread
    cases ht : p.isTruthy with
    | false =>
      obtain ⟨cause, hcause⟩ := h.ofReply_of_not_isTruthy hp ht
      rw [hcause] at hread
      cases hread
    | true =>
      have hfield := (Json.lookup_eq_ok (Json.ne_null_of_isTruthy ht)).1 hp
      rw [h.ofReply_eq hp ht] at hread
      rcases Steps.bind_eq_error.1 hread with hread | ⟨path, htext, hread⟩
      · obtain ⟨f, hf, ⟨⟩⟩ := Steps.mapError_eq_error.1 hread
        obtain ⟨hs, rfl⟩ := Json.text_eq_error.1 hf
        exact .path h hfield ht hs
      · have hstring := Json.eq_string_of_text (Steps.ok_of_mapError.1 htext)
        split at hread
        · cases hread
        · obtain ⟨f, hf, ⟨⟩⟩ := Steps.mapError_eq_error.1 hread
          exact .headers h (hstring ▸ hfield) ‹_› ((h.ofParts_eq_error _ _).1 hf)
  · intro hstops
    cases hstops with
    | entry hobject => exact absurd h.isObject hobject
    | compiler hmis => exact absurd hmis h.not_misdescribes
    | path h' hpath ht hs =>
      obtain rfl := h.unique h'
      rw [h.ofReply_eq ((Json.lookup_eq_ok (Json.ne_null_of_isTruthy ht)).2 hpath) ht,
        Json.text_eq_error.2 ⟨hs, rfl⟩]
      rfl
    | @headers _ path _ _ h' hpath hl hf =>
      obtain rfl := h.unique h'
      have ht : (Json.string path).isTruthy = true := by
        cases path with
        | nil =>
          rw [ofPath_nil] at hl
          cases hl
        | cons c rest => rfl
      rw [h.ofReply_eq ((Json.lookup_eq_ok (by simp)).2 hpath) ht]
      change (match Layout.ofPath path with
        | .error error => _
        | .ok layout => _) = _
      rw [hl]
      exact Steps.mapError_eq_error.2 ⟨_, (h.ofParts_eq_error path _).2 hf, rfl⟩

/-- **The search stops** at an entry, or in reading the one that it finds. -/
theorem stopsAt_iff : StopsAt language entry f ↔ serves language entry = .error f ∨
    serves language entry = .ok true ∧ ofReply entry = .error (.access f) := by
  constructor
  · intro hstops
    cases hstops with
    | entry hobject => exact .inl (serves_of_not_isObject hobject)
    | compiler hmis => exact .inl hmis.serves
    | path h hp ht hs => exact .inr ⟨h.serves, h.ofReply_stops_iff.2 (.path h hp ht hs)⟩
    | headers h hp hl hf => exact .inr ⟨h.serves, h.ofReply_stops_iff.2 (.headers h hp hl hf)⟩
  · intro h
    rcases serves_cases language entry with ⟨hs, hwhy⟩ | ⟨hs, compiler, hserves⟩ | hs
    · rw [hs] at h
      rcases h with ⟨⟨⟩⟩ | ⟨⟨⟩, -⟩
      rcases hwhy with hobject | ⟨compiler, hmis⟩
      · exact .entry hobject
      · exact .compiler hmis
    · rw [hs] at h
      rcases h with ⟨⟨⟩⟩ | ⟨-, h⟩
      exact hserves.ofReply_stops_iff.1 h
    · rw [hs] at h
      rcases h with ⟨⟨⟩⟩ | ⟨⟨⟩, -⟩

theorem passes_iff : Passes language entry ↔ serves language entry = .ok false := by
  constructor
  · intro hpasses
    rcases serves_cases language entry with ⟨hs, -⟩ | ⟨hs, compiler, h⟩ | hs
    · exact absurd (stopsAt_iff.2 (.inl hs)) (hpasses.1 _)
    · exact absurd h (hpasses.2 compiler)
    · exact hs
  · refine fun hs => ⟨fun f hstops => ?_, fun compiler h => ?_⟩
    · rcases stopsAt_iff.1 hstops with h | ⟨h, -⟩
      · rw [hs] at h
        cases h
      · rw [hs] at h
        cases h
    · rw [h.serves] at hs
      cases hs

/-- The toolchain for a language, of some entries. -/
def search (language : Text) (entries : List Json) : Except Fault Toolchains := do
  match ← Configuration.step (findFor language entries) with
  | none => return []
  | some entry => return [(language, ← ofReply entry)]

theorem search_cons (language : Text) (entry : Json) (rest : List Json) :
    search language (entry :: rest) = Configuration.step (serves language entry) >>= fun serves =>
      if serves then ofReply entry >>= fun t => .ok [(language, t)] else search language rest := by
  rw [search, findFor]
  cases serves language entry with
  | error f => rfl
  | ok b => cases b <;> rfl

/-- **The search stops** at the first entry that is not passed over, if that stops it. -/
theorem search_stops_iff {entries : List Json} : search language entries = .error (.access f) ↔
    Steps.First (Passes language) (StopsAt language · f) entries := by
  induction entries with
  | nil => exact ⟨fun h => (nomatch h), fun h => absurd h Steps.not_first_nil⟩
  | cons entry rest ih =>
    rw [search_cons, Steps.first_cons, stopsAt_iff, passes_iff]
    cases hs : serves language entry with
    | error e => simp [Configuration.step, Except.mapError, bind, Except.bind]
    | ok b =>
      cases b with
      | false =>
        change search language rest = _ ↔ _
        rw [ih]
        simp
      | true =>
        change (ofReply entry >>= fun t => .ok [(language, t)]) = _ ↔ _
        rw [Steps.bind_eq_error, or_iff_left (by rintro ⟨_, -, ⟨⟩⟩)]
        simp

theorem refuses_of_ofReply {fault : Fault} (h : ofReply entry = .error fault) :
    fault.Refuses ∨ ∃ f, fault = .access f := by
  have hstep : ∀ {α : Type} {x : Json.Access α}, Configuration.step x = .error fault →
      fault.Refuses ∨ ∃ f, fault = .access f := by
    intro α x hx
    obtain ⟨f, -, rfl⟩ := Steps.mapError_eq_error.1 hx
    exact .inr ⟨f, rfl⟩
  rcases Steps.bind_eq_error.1 h with h | ⟨compiler, -, h⟩
  · exact hstep h
  rcases Steps.bind_eq_error.1 h with h | ⟨path, -, h⟩
  · exact hstep h
  split at h
  · rcases Steps.bind_eq_error.1 h with h | ⟨l, -, h⟩
    · exact hstep h
    · cases h
      exact .inl trivial
  · rcases Steps.bind_eq_error.1 h with h | ⟨path, -, h⟩
    · exact hstep h
    split at h
    · cases h
      exact .inl trivial
    · exact hstep h

end Toolchain

namespace Toolchains

variable {language : Text} {document : Json} {f : Json.AccessFault} {fault : Fault}

/-- **How a document stops the search** for the toolchain of a language: it is no object, its
entries cannot be gone through, or one of them stops the search. -/
inductive StopsFor (document : Json) (language : Text) : Json.AccessFault → Prop
  | document (h : ¬document.IsObject) : StopsFor document language .notAnObject
  | toolchains {v : Json} (hv : document.field "toolchains" = .ok v) (h : ¬v.IsIterable) :
      StopsFor document language .wrongShape
  | entries {entries : List Json} {f : Json.AccessFault} (h : entriesOf document = .ok entries)
      (hf : Steps.First (Toolchain.Passes language) (Toolchain.StopsAt language · f) entries) :
      StopsFor document language f

/-- **How a document stops the reading of its toolchains**: at the first language for which it has
no answer. -/
def Stops (document : Json) (f : Json.AccessFault) : Prop :=
  Steps.First (fun language => ∃ toolchains, forLanguage document language = .ok toolchains)
    (StopsFor document · f) Toolchain.languages

theorem forLanguage_eq (document : Json) (language : Text) : forLanguage document language =
    Configuration.step (entriesOf document) >>= Toolchain.search language := rfl

theorem entriesOf_eq_error : entriesOf document = .error f ↔
    (¬document.IsObject ∧ f = .notAnObject) ∨
      ∃ v, document.field "toolchains" = .ok v ∧ ¬v.IsIterable ∧ f = .wrongShape := by
  rw [entriesOf, Steps.bind_eq_error, Json.lookup?_eq_error]
  refine or_congr_right ?_
  constructor
  · rintro ⟨o, ho, h⟩
    obtain ⟨hiterable, rfl⟩ := Json.iterate_eq_error.1 h
    cases o with
    | none => exact absurd (.inl ⟨[], rfl⟩) hiterable
    | some v => exact ⟨v, Json.field_of_lookup? ho, hiterable, rfl⟩
  · rintro ⟨v, hv, hiterable, rfl⟩
    exact ⟨some v, Json.lookup?_of_field hv, Json.iterate_eq_error.2 ⟨hiterable, rfl⟩⟩

theorem forLanguage_stops_iff :
    forLanguage document language = .error (.access f) ↔ StopsFor document language f := by
  rw [forLanguage_eq, Steps.bind_eq_error]
  constructor
  · rintro (h | ⟨entries, hentries, h⟩)
    · obtain ⟨f, hf, ⟨⟩⟩ := Steps.mapError_eq_error.1 h
      rcases entriesOf_eq_error.1 hf with ⟨hobject, rfl⟩ | ⟨v, hv, hiterable, rfl⟩
      · exact .document hobject
      · exact .toolchains hv hiterable
    · exact .entries (Steps.ok_of_mapError.1 hentries) (Toolchain.search_stops_iff.1 h)
  · intro h
    cases h with
    | document hobject =>
      exact .inl (Steps.mapError_eq_error.2 ⟨_, entriesOf_eq_error.2 (.inl ⟨hobject, rfl⟩), rfl⟩)
    | toolchains hv hiterable =>
      exact .inl (Steps.mapError_eq_error.2
        ⟨_, entriesOf_eq_error.2 (.inr ⟨_, hv, hiterable, rfl⟩), rfl⟩)
    | entries hentries hf =>
      exact .inr ⟨_, Steps.ok_of_mapError.2 hentries, Toolchain.search_stops_iff.2 hf⟩

/-- **Reading a toolchains document stops** exactly as the document says. -/
theorem ofReply_stops_iff : ofReply document = .error (.access f) ↔ Stops document f := by
  rw [ofReply, Steps.bind_eq_error, Steps.mapM_eq_error]
  have hlanguages : Steps.First (fun l => ∃ t, forLanguage document l = .ok t)
      (fun l => forLanguage document l = .error (.access f)) Toolchain.languages ↔
      Stops document f := by
    simp only [forLanguage_stops_iff]
    rfl
  rw [hlanguages]
  refine or_iff_left ?_
  rintro ⟨toolchains, -, h⟩
  split at h <;> cases h

/-- **Loading toolchains stops** exactly as their document says. -/
theorem load_stops_iff {d : Disk} {path : Option Text} :
    load d path = .error (.access f) ↔
      ∃ document, ReplyFile.read d (path.getD []) = .ok document ∧ Stops document f := by
  rw [load]
  constructor
  · intro h
    split at h
    · cases h
    rcases Steps.bind_eq_error.1 h with h | ⟨document, hread, h⟩
    · exact absurd h (CompileUnit.not_readFault _ f)
    · exact ⟨document, hread, ofReply_stops_iff.1 h⟩
  · rintro ⟨document, hread, h⟩
    obtain ⟨hpath, hthere⟩ := CompileUnit.isThere_of_read hread
    rw [if_neg (by simp [hpath, hthere])]
    exact Steps.bind_eq_error.2 (.inr ⟨document, hread, ofReply_stops_iff.2 h⟩)

theorem fails_of_load {d : Disk} {path : Option Text} (h : load d path = .error fault) :
    fault.Refuses ∨ (∃ f, fault = .access f) ∨ ∃ p, ReplyFile.read d p = .error fault := by
  rw [load] at h
  split at h
  · cases h
    exact .inl trivial
  rcases Steps.bind_eq_error.1 h with h | ⟨document, hread, h⟩
  · exact .inr (.inr ⟨_, h⟩)
  rcases Steps.bind_eq_error.1 h with h | ⟨found, -, h⟩
  · obtain ⟨language, -, h⟩ := (Steps.mapM_eq_error.1 h).exists
    rw [forLanguage_eq] at h
    rcases Steps.bind_eq_error.1 h with h | ⟨entries, -, h⟩
    · obtain ⟨f, -, rfl⟩ := Steps.mapError_eq_error.1 h
      exact .inr (.inl ⟨f, rfl⟩)
    rcases Steps.bind_eq_error.1 h with h | ⟨found, -, h⟩
    · obtain ⟨f, -, rfl⟩ := Steps.mapError_eq_error.1 h
      exact .inr (.inl ⟨f, rfl⟩)
    · split at h
      · cases h
      · rcases Steps.bind_eq_error.1 h with h | ⟨t, -, h⟩
        · exact (Toolchain.refuses_of_ofReply h).imp_right .inl
        · cases h
  · split at h
    · cases h
      exact .inl trivial
    · cases h

end Toolchains

end BuildLint

import BuildLint.Proofs.Report.Unreadable
import BuildLint.Proofs.Toolchain.Shapes

/-!
# Proofs/Analysis/Replies — which replies are not refused with a failure

The index, the code model and the toolchains of a reply may hold anything.  Whatever they hold, a
part that is missing or a position out of range is refused with a failure; but a value that has
another shape than a step needs may stop the program as it is.  It does so at the places that
`Index.Stops`, `CompileUnit.Stops` and `Toolchains.Stops` name, and nowhere else.

* `StopsOnly` — how an outcome may fail.
* `replies_stop_only` — the three documents.
* `misshapen_replies_stop` — a reply of which each document stops the program.
-/

namespace BuildLint

/-- A value has another shape than a step into it needs. -/
def Json.AccessFault.IsMisfit (f : Json.AccessFault) : Prop := f = .wrongShape ∨ f = .notAnObject

section

variable {document : Json} {f : Json.AccessFault}

/-! ## Only shapes stop -/

theorem Index.StopsAt.isMisfit {kind : Text} {response : Json}
    (h : Index.StopsAt kind response f) : f.IsMisfit := by
  cases h with
  | response => exact .inr rfl
  | document => exact .inl rfl

theorem Index.Stops.isMisfit (h : Index.Stops document f) : f.IsMisfit := by
  cases h with
  | responses => exact .inl rfl
  | codemodel _ _ hf =>
    obtain ⟨response, -, hstops⟩ := hf.exists
    exact hstops.isMisfit
  | toolchains _ _ _ hf =>
    obtain ⟨response, -, hstops⟩ := hf.exists
    exact hstops.isMisfit

theorem CompileUnit.Stops.isMisfit {d : Disk} {base : Text} {configuration : Option Text}
    {excluded : List Text} (h : CompileUnit.Stops d base configuration excluded document f) :
    f.IsMisfit := by
  cases h with
  | configuration => exact .inr rfl
  | targets => exact .inl rfl
  | file => exact .inl rfl

theorem Toolchain.HeadersStop.isMisfit {compiler : Json} (h : Toolchain.HeadersStop compiler f) :
    f.IsMisfit := by
  cases h with
  | implicit => exact .inr rfl
  | directories => exact .inl rfl

theorem Toolchain.StopsAt.isMisfit {language : Text} {entry : Json}
    (h : Toolchain.StopsAt language entry f) : f.IsMisfit := by
  cases h with
  | entry => exact .inr rfl
  | compiler => exact .inr rfl
  | path => exact .inl rfl
  | headers _ _ _ hf => exact hf.isMisfit

theorem Toolchains.StopsFor.isMisfit {language : Text}
    (h : Toolchains.StopsFor document language f) : f.IsMisfit := by
  cases h with
  | document => exact .inr rfl
  | toolchains => exact .inl rfl
  | entries _ hf =>
    obtain ⟨entry, -, hstops⟩ := hf.exists
    exact hstops.isMisfit

theorem Toolchains.Stops.isMisfit (h : Toolchains.Stops document f) : f.IsMisfit := by
  obtain ⟨language, -, hstops⟩ := h.exists
  exact hstops.isMisfit

end

/-! ## The three documents -/

/-- **How an outcome may fail**: it stops as is said of it, which is always for a value's shape, and
otherwise it is refused with a failure or some reply baffles its reader. -/
structure StopsOnly {α : Type} (d : Disk) (outcome : Except Fault α)
    (stops : Json.AccessFault → Prop) : Prop where
  stops_iff : ∀ f, outcome = .error (.access f) ↔ stops f
  isMisfit : ∀ f, stops f → f.IsMisfit
  refuses : ∀ fault, outcome = .error fault →
    fault.Refuses ∨ (∃ f, fault = .access f) ∨ ∃ path, d.Baffles path fault

theorem ReplyFile.refuses_or_baffles {d : Disk} {path : Text} {fault : Fault}
    (h : ReplyFile.read d path = .error fault) : fault.Refuses ∨ ∃ path, d.Baffles path fault := by
  have hread := ReplyFile.read_failsOnly d path
  cases fault with
  | failure failure =>
    have hown := hread.own failure h
    cases failure with
    | metadata cause => exact .inl trivial
    | _ => exact absurd hown id
  | _ => exact .inr ⟨_, (hread.baffles_iff _ (by simp)).1 h⟩

theorem Index.load_stopsOnly (apiDirectory : Text) (host : Host) (w : World) :
    StopsOnly w.disk ((Index.load apiDirectory).result host w) fun f =>
      ∃ path document,
        Index.newest? w.disk (Path.below (Path.tidy apiDirectory) "reply") = some path ∧
          ReplyFile.read w.disk path = .ok document ∧ Index.Stops document f := by
  rw [Index.load_result]
  constructor
  · intro f
    cases Index.newest? w.disk (Path.below (Path.tidy apiDirectory) "reply") with
    | none => simp
    | some path =>
      simp only [Option.some.injEq, exists_and_left, exists_eq_left']
      rw [Steps.bind_eq_error, or_iff_right (CompileUnit.not_readFault path f)]
      exact exists_congr fun document => and_congr_right fun _ => Index.ofReply_stops_iff
  · rintro f ⟨path, document, -, -, h⟩
    exact h.isMisfit
  · intro fault h
    cases hnewest : Index.newest? w.disk (Path.below (Path.tidy apiDirectory) "reply") with
    | none =>
      rw [hnewest] at h
      cases h
      exact .inl trivial
    | some path =>
      rw [hnewest] at h
      rcases Steps.bind_eq_error.1 h with h | ⟨document, -, h⟩
      · exact (ReplyFile.refuses_or_baffles h).imp_right .inr
      · exact (Index.refuses_of_ofReply h).imp_right .inl

theorem CompileUnit.load_stopsOnly (d : Disk) (codemodel configuration : Option Text)
    (excluded : List Text) :
    StopsOnly d (CompileUnit.load d codemodel configuration excluded) fun f =>
      ∃ document, ReplyFile.read d (codemodel.getD []) = .ok document ∧
        CompileUnit.Stops d (CompileUnit.replyDirectory codemodel) configuration excluded
          document f where
  stops_iff := fun _ => CompileUnit.load_stops_iff
  isMisfit := fun _ ⟨_, _, h⟩ => h.isMisfit
  refuses := fun _ h => by
    rcases CompileUnit.fails_of_load h with h | h | ⟨path, h⟩
    · exact .inl h
    · exact .inr (.inl h)
    · exact (ReplyFile.refuses_or_baffles h).imp_right .inr

theorem Toolchains.load_stopsOnly (d : Disk) (path : Option Text) :
    StopsOnly d (Toolchains.load d path) fun f =>
      ∃ document, ReplyFile.read d (path.getD []) = .ok document ∧
        Toolchains.Stops document f where
  stops_iff := fun _ => Toolchains.load_stops_iff
  isMisfit := fun _ ⟨_, _, h⟩ => h.isMisfit
  refuses := fun _ h => by
    rcases Toolchains.fails_of_load h with h | h | ⟨path, h⟩
    · exact .inl h
    · exact .inr (.inl h)
    · exact (ReplyFile.refuses_or_baffles h).imp_right .inr

/-- **Replies of any shape.**  Whatever documents stand on a disk, an index, a code model or a
toolchains document that is loaded gives its content, is refused with a failure, or stops the
program exactly if it stops as `Index.Stops`, `CompileUnit.Stops` or `Toolchains.Stops` say: for the
shape of a value, and never for a part that is missing or out of range. -/
theorem replies_stop_only (host : Host) (w : World) :
    (∀ apiDirectory,
      StopsOnly w.disk ((Index.load apiDirectory).result host w) fun f =>
        ∃ path document,
          Index.newest? w.disk (Path.below (Path.tidy apiDirectory) "reply") = some path ∧
            ReplyFile.read w.disk path = .ok document ∧ Index.Stops document f) ∧
    (∀ codemodel configuration excluded,
      StopsOnly w.disk (CompileUnit.load w.disk codemodel configuration excluded) fun f =>
        ∃ document, ReplyFile.read w.disk (codemodel.getD []) = .ok document ∧
          CompileUnit.Stops w.disk (CompileUnit.replyDirectory codemodel) configuration excluded
            document f) ∧
    ∀ path, StopsOnly w.disk (Toolchains.load w.disk path) fun f =>
      ∃ document, ReplyFile.read w.disk (path.getD []) = .ok document ∧
        Toolchains.Stops document f :=
  ⟨fun apiDirectory => Index.load_stopsOnly apiDirectory host w, CompileUnit.load_stopsOnly w.disk,
    Toolchains.load_stopsOnly w.disk⟩

/-! ### A reply of which each document stops the program -/

/-- An index with a response that is nothing. -/
def misshapenIndex : Json := .object [
  ("cmake", .object [("version", .object [("string", .string "4")])]),
  ("reply", .object [(Query.clientName, .object [(Query.fileName,
    .object [("responses", .array [.null])])])])]

/-- A code model whose only configuration has no list of targets. -/
def misshapenCodeModel : Json := .object [
  ("paths", .object [("source", .string "/s")]),
  ("configurations", .array [.object [("directories", .array []), ("targets", .null)]])]

def misshapenDisk : Disk := ⟨[], [(["r"], .directory), (["r", "reply"], .directory),
  (["r", "reply", "index-0"], .file (Utf8.encode misshapenIndex.write)),
  (["r", "reply", "c"], .file (Utf8.encode misshapenCodeModel.write)),
  (["r", "reply", "t"], .file (Utf8.encode (Json.array []).write))]⟩

theorem misshapen_replies_stop :
    (Index.load "/r").result idleHost ⟨misshapenDisk, [], [], []⟩ = .error (.access .notAnObject) ∧
    CompileUnit.load misshapenDisk ("/r/reply/c" : Text) none [] = .error (.access .wrongShape) ∧
    Toolchains.load misshapenDisk ("/r/reply/t" : Text) = .error (.access .notAnObject) := by
  have hindex : ReplyFile.read misshapenDisk "/r/reply/index-0" = .ok misshapenIndex :=
    CompileUnit.read_of_look?
      (by simp +decide [misshapenIndex, Query.clientName, Query.fileName])
      (by simp [misshapenIndex]) rfl
  have hcodemodel : ReplyFile.read misshapenDisk "/r/reply/c" = .ok misshapenCodeModel :=
    CompileUnit.read_of_look? (by simp +decide [misshapenCodeModel])
      (by simp [misshapenCodeModel]) rfl
  have htoolchains : ReplyFile.read misshapenDisk "/r/reply/t" = .ok (.array []) :=
    CompileUnit.read_of_look? (by simp) (by simp) rfl
  have hnewest : Index.newest? misshapenDisk (Path.below (Path.tidy "/r") "reply") =
      some "/r/reply/index-0" := by decide +kernel
  refine ⟨?_, ?_, ?_⟩
  · refine ((Index.load_stopsOnly "/r" idleHost ⟨misshapenDisk, [], [], []⟩).stops_iff _).2
      ⟨_, _, hnewest, hindex, ?_⟩
    exact .codemodel rfl rfl (.here (.response fun ⟨_, h⟩ => nomatch h))
  · refine CompileUnit.load_stops_iff.2 ⟨_, hcodemodel, ?_⟩
    refine .targets rfl ?_
    rintro (⟨_, h⟩ | ⟨_, h⟩ | ⟨_, h⟩) <;> cases h
  · exact Toolchains.load_stops_iff.2 ⟨_, htoolchains, .here (.document fun ⟨_, h⟩ => nomatch h)⟩

end BuildLint

import BuildLint.Console.Program
import BuildLint.Proofs.Action.Events
import BuildLint.Proofs.Keyed

/-!
# Proofs/Console/Commands — what a command does with its options, and how it ends

A command that reads a build gathers its options first: it talks to the user while it does, and
nothing else.  Whether rows are to be shown and where a report is to be is said on the command line
as well, but is none of the options of an analysis.

* `Given.without` — a command line apart from one option; `Program.optionsFor_congr`.
* `Program.optionsFor_does` — gathering options only talks.
* `Program.world_run`, `exists_printed_of_exitCode` — the world that a command leaves, and what is
  known of one that ends with zero.
-/

namespace BuildLint

/-! ## Command lines that differ in one option -/

theorem findSome?_filter {α β : Type} {p : α → Bool} {f : α → Option β}
    (h : ∀ a, p a = false → f a = none) (l : List α) :
    (l.filter p).findSome? f = l.findSome? f := by
  induction l with
  | nil => rfl
  | cons a rest ih =>
    rw [List.filter_cons, List.findSome?_cons]
    cases hp : p a with
    | false => simpa [h a hp] using ih
    | true => simp [List.findSome?_cons, ih]

namespace Given

/-- **A command line apart from an option.** -/
def without (given : Given) (name : Text) : Given :=
  { given with options := given.options.filter fun o => o.1 ≠ name }

theorem value?_without (given : Given) {name option : Text} (h : option ≠ name) :
    (given.without name).value? option = given.value? option := by
  rw [value?, value?, without, ← List.filter_reverse]
  refine findSome?_filter (fun o ho => ?_) _
  have hname : o.1 = name := by simpa using ho
  split
  · exact if_neg fun hoption => h (hoption.symm.trans hname)
  · rfl

/-- What a command line says about an analysis, the last word on each option counting. -/
def chosen (given : Given) : Json.Members :=
  (Keyed.overlay [] given.options).filter fun o => (Config.kind? o.1).isSome

theorem chosen_without (given : Given) {name : Text} (h : Config.kind? name = none) :
    (given.without name).chosen = given.chosen := by
  rw [chosen, chosen, Keyed.filter_overlay fun option => (Config.kind? option).isSome,
    Keyed.filter_overlay fun option => (Config.kind? option).isSome, without, List.filter_filter]
  refine congrArg (Keyed.overlay _) (List.filter_congr fun o _ => ?_)
  by_cases ho : o.1 = name
  · simp [ho, h]
  · simp [ho]

end Given

namespace Program

variable {name : Text} {given given' : Given} (settings : SettingsReader)

/-- **An option that decides nothing** about an analysis: it is none of its options, and names
neither the root nor the settings file. -/
theorem optionsFor_without (given : Given) (hroot : "project_root" ≠ name)
    (hconfig : "config" ≠ name) (hkind : Config.kind? name = none) :
    optionsFor settings (given.without name) = optionsFor settings given := by
  have hchosen := given.chosen_without hkind
  rw [Given.chosen, Given.chosen] at hchosen
  simp only [optionsFor, Given.value?_without given hroot, Given.value?_without given hconfig,
    hchosen]

/-- **The two commands have the same options**, whether rows are asked for and wherever the report
is to be. -/
theorem optionsFor_congr (h : given.without "json" = given'.without "output") :
    optionsFor settings given = optionsFor settings given' := by
  have hjson : optionsFor settings (given.without "json") = optionsFor settings given :=
    optionsFor_without settings given (by decide) (by decide) (by decide)
  have houtput : optionsFor settings (given'.without "output") = optionsFor settings given' :=
    optionsFor_without settings given' (by decide) (by decide) (by decide)
  rw [← hjson, h, houtput]

end Program

/-! ## Gathering options -/

namespace Event

/-- The user is told something. -/
def IsTold (e : Event) : Prop := ∃ message, e = .tell message

theorem isTold_tell (message : Message) : (tell message).IsTold := ⟨message, rfl⟩

theorem IsTold.keepsLogs {e : Event} (h : e.IsTold) : e.KeepsLogs := by
  obtain ⟨message, rfl⟩ := h
  trivial

end Event

namespace Config

variable {P : Event → Prop}

theorem defaultRoot_does : defaultRoot.Does P := by
  refine Action.does_read.bind fun host => ?_
  split
  · exact Action.does_disk.bind fun d => Action.does_pure _
  · exact Action.does_pure _

variable (htell : ∀ message, P (.tell message))

include htell

theorem warnUnknown_does (path : Text) (options : Json.Members) :
    (warnUnknown path options).Does P := by
  rw [warnUnknown]
  induction options.filter fun o => (kind? o.1).isNone with
  | nil => exact Action.does_pure _
  | cons o rest ih => exact (Action.does_tell _ _ (htell _)).bind fun _ => ih

/-- **Loading the options** only talks. -/
theorem loadOptions_does (settings : SettingsReader) (root : Text) (named : Option Text)
    (commandLine : Json.Members) : (loadOptions settings root named commandLine).Does P := by
  refine (Action.does_consult _).bind fun path => Action.Does.bind ?_ fun file =>
    Action.does_ofExcept _
  cases path with
  | none => exact Action.does_pure _
  | some path => exact (Action.does_consult _).bind fun options =>
      (warnUnknown_does htell _ _).bind fun _ => Action.does_pure _

end Config

namespace Program

theorem optionsFor_does (settings : SettingsReader) (given : Given) :
    (optionsFor settings given).Does Event.IsTold := by
  rw [optionsFor]
  split
  · exact (Action.does_pure _).bind fun root => Action.does_disk.bind fun d =>
      Config.loadOptions_does Event.isTold_tell _ _ _ _
  · exact Config.defaultRoot_does.bind fun root => Action.does_disk.bind fun d =>
      Config.loadOptions_does Event.isTold_tell _ _ _ _

/-! ## How a command ends -/

variable {libraries : Libraries} {host : Host} {w : World}

theorem world_endWith (exitCode : Int) (lines : List Text) (w : World) :
    (endWith exitCode lines w).world = w := by
  rw [endWith]
  split <;> rfl

theorem exitCode_endWith_one (lines : List Text) (w : World) :
    (endWith 1 lines w).exitCode = 1 := by
  rw [endWith]
  split <;> rfl

/-- **The world that a command leaves** is that of its action. -/
theorem world_run {arguments : List Text} {command : Command}
    (h : libraries.commandLine w.disk arguments = some command) :
    (run libraries arguments host w).world = (command.perform libraries.settings).after host w := by
  rw [run, h, Action.after]
  dsimp only
  cases command.perform libraries.settings host w with
  | ok lines v => exact world_endWith 0 lines v
  | error fault v =>
    cases fault with
    | failure failure => exact world_endWith 1 _ v
    | _ => rfl

/-- **A command that ends with zero** has done its work and printed all its lines. -/
theorem exists_printed_of_exitCode {arguments : List Text} {command : Command}
    (h : libraries.commandLine w.disk arguments = some command)
    (hzero : (run libraries arguments host w).exitCode = 0) :
    ∃ lines v, command.perform libraries.settings host w = .ok lines v ∧
      printed lines = ((run libraries arguments host w).output, none) := by
  have hone : ¬(1 : Int) = 0 := by decide
  rw [run, h] at hzero ⊢
  dsimp only at hzero ⊢
  cases hperform : command.perform libraries.settings host w with
  | ok lines v =>
    rw [hperform] at hzero
    refine ⟨lines, v, rfl, ?_⟩
    dsimp only at hzero ⊢
    rw [endWith] at hzero ⊢
    cases hprinted : printed lines with
    | mk output fault =>
      rw [hprinted] at hzero
      cases fault with
      | none => rfl
      | some fault => exact absurd hzero hone
  | error fault v =>
    rw [hperform] at hzero
    cases fault with
    | failure failure => exact absurd ((exitCode_endWith_one _ v).symm.trans hzero) hone
    | _ => exact absurd hzero hone

/-- What a single line prints. -/
theorem printed_singleton {line output : Text} (h : printed [line] = (output, none)) :
    output = line ++ "\n" := by
  rw [printed] at h
  split at h
  · cases h
  · exact (congrArg Prod.fst h).symm.trans (List.append_nil _)

end Program

end BuildLint

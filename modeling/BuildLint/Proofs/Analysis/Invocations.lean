import BuildLint.Proofs.Action.Rollback
import BuildLint.Proofs.Analysis.Preparation
import BuildLint.Proofs.Analysis.Sharing
import BuildLint.Proofs.CommandLine.Tokens

/-!
# Proofs/Analysis/Invocations — a call and a log for every unit, or nothing at all

Units are taken one by one.  A unit whose language has a toolchain gets a call, and with it a fresh
log; any other unit is passed over.  At the first unit that can get no call, whatever the reason,
the logs so far are taken away again.

* `Invocation.IsFor` — what the call for a unit is; `ofUnit_run` makes one.
* `Invocation.Since`, `Undone` — a world with the calls so far, and a world without them.
* `Invocation.made_or_refused` — all units: every one that has a toolchain gets a call, or the first
  that can get none decides the fault.
* `Invocation.ofUnits_calls`, `ofUnits_fault` — the two ends of a run.
-/

namespace BuildLint

/-- The language of a unit can be looked up, as any text can: it is no list and no object. -/
def CompileUnit.IsKeyed (u : CompileUnit) : Prop :=
  match u.language with
  | .array _ => False
  | .object _ => False
  | _ => True

namespace Invocation

variable {table : Table} {options : Options} {host : Host} {w w₀ v : World}
  {toolchains : Toolchains} {u : CompileUnit} {t : Toolchain} {units : List CompileUnit}
  {before calls : List Invocation} {i : Invocation} {fault : Fault}

/-! ## The units that have a toolchain -/

/-- The toolchain for a unit's language. -/
def toolchainOf? (toolchains : Toolchains) (u : CompileUnit) : Option Toolchain :=
  match u.language with
  | .string language => toolchains.get? language
  | _ => none

theorem toolchainFor?_of_isKeyed (toolchains : Toolchains) (h : u.IsKeyed) :
    toolchainFor? toolchains u = .ok (toolchainOf? toolchains u) := by
  rw [CompileUnit.IsKeyed] at h
  rw [toolchainFor?, toolchainOf?]
  generalize u.language = language at h ⊢
  cases language with
  | array _ => exact h.elim
  | object _ => exact h.elim
  | _ => rfl

theorem toolchainFor?_of_not_isKeyed (toolchains : Toolchains) (h : ¬u.IsKeyed) :
    toolchainFor? toolchains u = .error .wrongShape := by
  rw [CompileUnit.IsKeyed] at h
  rw [toolchainFor?]
  generalize u.language = language at h ⊢
  cases language with
  | array _ => rfl
  | object _ => rfl
  | _ => exact absurd trivial h

/-- **The units whose language has a toolchain**, each with it, in order. -/
def served (toolchains : Toolchains) (units : List CompileUnit) : List (CompileUnit × Toolchain) :=
  units.filterMap fun u => (toolchainOf? toolchains u).map (u, ·)

theorem served_cons_of_none (h : toolchainOf? toolchains u = none) (rest : List CompileUnit) :
    served toolchains (u :: rest) = served toolchains rest :=
  List.filterMap_cons_none (by rw [h]; rfl)

theorem served_cons_of_some (h : toolchainOf? toolchains u = some t) (rest : List CompileUnit) :
    served toolchains (u :: rest) = (u, t) :: served toolchains rest :=
  List.filterMap_cons_some (by rw [h]; rfl)

/-! ## What a call is -/

/-- **A directory is left out of the analysis**: as a system directory, or because it is at or below
an ignored one. -/
def IsLeftOut (options : Options) (i : IncludePath) : Prop :=
  (options.ignoreSystemHeaders = true ∧ i.isSystem = true) ∨
    ∃ base ∈ options.ignoredIncludePaths, Path.isAtOrBelow i.path.plain base = true

/-- The argument for a directory to include from. -/
def IsIncludeArgument (options : Options) (i : IncludePath) (argument : Text) : Prop :=
  (IsLeftOut options i ∧ argument = "/external:I" ++ i.path.plain) ∨
    ¬IsLeftOut options i ∧ argument = "/I" ++ i.path.plain

theorem isIncludeArgument_ofInclude (options : Options) (i : IncludePath) :
    IsIncludeArgument options i (Arguments.ofInclude options i) := by
  have hleft : IsLeftOut options i ↔ Arguments.isExternal options i = true := by
    rw [Arguments.isExternal, Path.isCovered, Bool.or_eq_true, Bool.and_eq_true, List.any_eq_true]
    exact Iff.rfl
  rw [IsIncludeArgument, hleft, Arguments.ofInclude]
  cases Arguments.isExternal options i with
  | true => exact .inl ⟨rfl, rfl⟩
  | false => exact .inr ⟨Bool.false_ne_true, rfl⟩

/-- **A call is for a unit and its toolchain**: it passes on what the unit says about its
compilation, where the log is, and what all sources of the compiler share. -/
structure IsFor (table : Table) (options : Options) (pair : CompileUnit × Toolchain)
    (i : Invocation) : Prop where
  source : i.source = pair.1.source
  compiler : i.compiler = pair.2.compiler
  arguments : ∃ flags includes shared,
    Tokens.split? pair.1.flags = some flags ∧
    List.Forall₂ (IsIncludeArgument options) (pair.1.includes ++ pair.2.implicitIncludes)
      includes ∧
    Table.find? pair.2.compiler table.shared = some shared ∧
    i.arguments = flags ++ includes ++
      pair.1.defines.map (fun d => Text.ofString "/D" ++ d.plain) ++ [pair.1.source] ++
      ["/analyze:log" ++ i.log] ++ shared.arguments ∧
    i.environment = shared.environment

/-! ## Making a call -/

/-- **A unit blocks the calls** if it is to get a log after some more: its flags hold an odd number
of double quotes, or the logs have run out. -/
def Blocks (host : Host) (w : World) (more : Nat) (u : CompileUnit) : Prop :=
  Odd (u.flags.count ('"' : CodePoint)) ∨ Action.RunsOut host w more

/-- **The fault of a unit** that blocks the calls: its flags are cut before its log is allocated. -/
def IsFaultOf (u : CompileUnit) (fault : Fault) : Prop :=
  (Odd (u.flags.count ('"' : CodePoint)) ∧ fault = .failure (.synthesis (.openQuote u.source))) ∨
    ¬Odd (u.flags.count ('"' : CodePoint)) ∧ ∃ cause, fault = .failure (.synthesis (.noLog cause))

/-- **The call for a unit** that has a toolchain is made, unless the unit blocks it. -/
theorem ofUnit_run (options : Options) (u : CompileUnit) (host : Host) (w : World)
    (h : Table.Covers table.shared t.compiler) :
    (Blocks host w 0 u ∧
        ∃ fault, IsFaultOf u fault ∧ ofUnit table options u t host w = .error fault w) ∨
      ¬Blocks host w 0 u ∧ ∃ i v, ofUnit table options u t host w = .ok i v ∧
        IsFor table options (u, t) i ∧ Event.perform host w (.allocate i.log) = some v := by
  obtain ⟨shared, hshared⟩ := h
  rw [ofUnit_apply options u host w hshared, Arguments.ofUnit]
  cases hflags : Tokens.split? u.flags with
  | none =>
    have hodd := (Tokens.split?_eq_none_iff u.flags).1 hflags
    exact .inl ⟨.inl hodd, _, .inl ⟨hodd, rfl⟩, rfl⟩
  | some flags =>
    have heven : ¬Odd (u.flags.count ('"' : CodePoint)) := by
      rw [← Tokens.split?_eq_none_iff, hflags]
      exact Option.some_ne_none flags
    dsimp only
    rcases Action.allocateLog_run host w with ⟨hout, cause, hrun⟩ | ⟨hleft, log, v, hrun, -, hlog⟩
    · rw [hrun]
      exact .inl ⟨.inr hout, _, .inr ⟨heven, cause, rfl⟩, rfl⟩
    · rw [hrun]
      refine .inr ⟨not_or.2 ⟨heven, hleft⟩, _, v, rfl, ⟨rfl, rfl, flags, _, shared, hflags, ?_,
        hshared, rfl, rfl⟩, hlog⟩
      exact List.forall₂_map_right_iff.2 (List.forall₂_same.2 fun i _ =>
        isIncludeArgument_ofInclude options i)

/-! ## The calls so far -/

/-- **Some calls have been made since a world**: their logs have come to the disk, and nothing else
has. -/
structure Since (w₀ : World) (calls : List Invocation) (w : World) : Prop where
  gains : Action.Gains (logs calls) w₀.disk w.disk
  listed : w.logs = w₀.logs ++ logs calls

/-- **Some logs have come and gone since a world**: at every path stands what stood there. -/
structure Undone (w₀ : World) (n : Nat) (v : World) : Prop where
  look : v.disk.look? = w₀.disk.look?
  gone : ∃ allocated, v.logs = w₀.logs ++ allocated ∧ allocated.length = n ∧
    ∀ log ∈ allocated, v.disk.isThere log = false

theorem Since.refl (w : World) : Since w [] w := ⟨.nil _, (List.append_nil _).symm⟩

theorem Since.concat (h : Since w₀ before w)
    (hlog : Event.perform host w (.allocate i.log) = some v) : Since w₀ (before ++ [i]) v := by
  refine ⟨logs_concat before i ▸ h.gains.concat hlog, ?_⟩
  rw [Event.logs_perform hlog, h.listed, logs_concat, List.append_assoc]
  rfl

/-- **After a fault** the calls so far are undone. -/
theorem Since.undone {α : Type} {x : Action α} (h : Since w₀ before w)
    (hx : x host w = .error fault w) :
    ∃ v, x.orElseUndo (Action.discardLogs (logs before)) host w = .error fault v ∧
      Undone w₀ before.length v := by
  obtain ⟨e, hlook, hrun⟩ := Action.orElseUndo_restores hx h.gains
  refine ⟨_, hrun, hlook, logs before, h.listed, List.length_map _, fun log hlog => ?_⟩
  have hfresh := h.gains.fresh log hlog
  rwa [Disk.isThere, ← hlook] at hfresh

/-! ## All calls -/

/-- **The first unit that blocks the calls** is that at a place of a list. -/
structure IsFirstBlock (host : Host) (w : World) (pairs : List (CompileUnit × Toolchain)) (k : Nat)
    (u : CompileUnit) : Prop where
  unit : ∃ t, pairs[k]? = some (u, t)
  blocks : Blocks host w k u
  before : ∀ j < k, ∀ pair, pairs[j]? = some pair → ¬Blocks host w j pair.1

/-- There is one first unit at most. -/
theorem IsFirstBlock.unique {pairs : List (CompileUnit × Toolchain)} {j k : Nat} {u' : CompileUnit}
    (h : IsFirstBlock host w pairs j u) (h' : IsFirstBlock host w pairs k u') : j = k ∧ u = u' := by
  obtain ⟨t, ht⟩ := h.unit
  obtain ⟨t', ht'⟩ := h'.unit
  have hle : ¬j < k := fun hlt => h'.before j hlt _ ht h.blocks
  have hge : ¬k < j := fun hlt => h.before k hlt _ ht' h'.blocks
  obtain rfl : j = k := by omega
  exact ⟨rfl, congrArg Prod.fst (Option.some.inj (ht.symm.trans ht'))⟩

theorem blocks_of_allocate {log : Text} (h : Event.perform host w (.allocate log) = some v)
    (more : Nat) (u : CompileUnit) : Blocks host v more u ↔ Blocks host w (more + 1) u :=
  or_congr_right (Action.runsOut_of_allocate h more)

theorem isFirstBlock_zero (h : Blocks host w 0 u) (rest : List (CompileUnit × Toolchain)) :
    IsFirstBlock host w ((u, t) :: rest) 0 u :=
  ⟨⟨t, rfl⟩, h, fun _ hj => absurd hj (Nat.not_lt_zero _)⟩

theorem IsFirstBlock.succ {log : Text} {rest : List (CompileUnit × Toolchain)} {k : Nat}
    {u' : CompileUnit} (h : IsFirstBlock host v rest k u')
    (hlog : Event.perform host w (.allocate log) = some v) (hfirst : ¬Blocks host w 0 u) :
    IsFirstBlock host w ((u, t) :: rest) (k + 1) u' where
  unit := h.unit
  blocks := (blocks_of_allocate hlog k u').1 h.blocks
  before := fun j hj pair hpair => by
    cases j with
    | zero =>
      obtain rfl := Option.some.inj hpair
      exact hfirst
    | succ j =>
      rw [← blocks_of_allocate hlog]
      exact h.before j (Nat.lt_of_succ_lt_succ hj) pair hpair

/-! ### One more unit -/

theorem choose_apply (hkeyed : u.IsKeyed) (undo : Action Unit) (host : Host) (w : World) :
    Action.orElseUndo (Action.ofExcept (Configuration.step (toolchainFor? toolchains u))) undo
      host w = .ok (toolchainOf? toolchains u) w := by
  rw [toolchainFor?_of_isKeyed _ hkeyed]
  rfl

/-- A unit that cannot be looked up undoes the calls. -/
theorem extend_cons_of_not_isKeyed (h : Since w₀ before w) (hkeyed : ¬u.IsKeyed)
    (rest : List CompileUnit) :
    ∃ fault v, extend table options before (u :: rest) host w = .error fault v ∧
      Undone w₀ before.length v := by
  have hthrow : Action.ofExcept (Configuration.step (toolchainFor? table.toolchains u)) host w =
      .error (.access .wrongShape) w := by
    rw [toolchainFor?_of_not_isKeyed _ hkeyed]
    rfl
  obtain ⟨v, hrun, hundone⟩ := h.undone hthrow
  refine ⟨.access .wrongShape, v, ?_, hundone⟩
  rw [extend_cons_apply, hrun]

/-- A unit without a toolchain is passed over. -/
theorem extend_cons_of_none (hkeyed : u.IsKeyed) (hchoose : toolchainOf? table.toolchains u = none)
    (rest : List CompileUnit) :
    extend table options before (u :: rest) host w = extend table options before rest host w := by
  rw [extend_cons_apply, choose_apply hkeyed, hchoose]

/-- A unit that blocks the calls undoes them. -/
theorem extend_cons_of_error (h : Since w₀ before w) (hkeyed : u.IsKeyed)
    (hchoose : toolchainOf? table.toolchains u = some t)
    (hunit : ofUnit table options u t host w = .error fault w) (rest : List CompileUnit) :
    ∃ v, extend table options before (u :: rest) host w = .error fault v ∧
      Undone w₀ before.length v := by
  obtain ⟨v, hrun, hundone⟩ := h.undone hunit
  refine ⟨v, ?_, hundone⟩
  rw [extend_cons_apply, choose_apply hkeyed, hchoose]
  dsimp only
  rw [hrun]

/-- Any other unit adds its call. -/
theorem extend_cons_of_ok (hkeyed : u.IsKeyed) (hchoose : toolchainOf? table.toolchains u = some t)
    (hunit : ofUnit table options u t host w = .ok i v) (rest : List CompileUnit) :
    extend table options before (u :: rest) host w =
      extend table options (before ++ [i]) rest host v := by
  rw [extend_cons_apply, choose_apply hkeyed, hchoose]
  simp only [Action.orElseUndo, hunit]

/-! ### All units -/

section

variable (table : Table) (options : Options) (host : Host) (w₀ w : World)
  (before : List Invocation) (units : List CompileUnit)

/-- **The calls for some units are made**, after others: each unit that has a toolchain gets its
call, and none blocks. -/
def Made : Prop :=
  ∃ calls v, extend table options before units host w = .ok (before ++ calls) v ∧
    List.Forall₂ (IsFor table options) (served table.toolchains units) calls ∧
    Since w₀ (before ++ calls) v ∧
    ∀ k pair, (served table.toolchains units)[k]? = some pair → ¬Blocks host w k pair.1

/-- **The calls for some units are refused**, and those before them undone: a unit cannot be looked
up, or the first that blocks decides the fault. -/
def Refused : Prop :=
  ∃ fault v n, extend table options before units host w = .error fault v ∧
    Undone w₀ (before.length + n) v ∧
    ((∃ u ∈ units, ¬u.IsKeyed) ∨
      ∃ u, IsFirstBlock host w (served table.toolchains units) n u ∧ IsFaultOf u fault)

end

theorem Made.nil (h : Since w₀ before w) : Made table options host w₀ w before [] := by
  refine ⟨[], w, ?_, .nil, ?_, fun k pair hpair => nomatch hpair⟩
  · rw [List.append_nil]
    rfl
  · rwa [List.append_nil]

theorem Made.cons_of_none {rest : List CompileUnit} (h : Made table options host w₀ w before rest)
    (hkeyed : u.IsKeyed) (hchoose : toolchainOf? table.toolchains u = none) :
    Made table options host w₀ w before (u :: rest) := by
  rw [Made, served_cons_of_none hchoose, extend_cons_of_none hkeyed hchoose]
  exact h

theorem Made.cons_of_ok {rest : List CompileUnit}
    (h : Made table options host w₀ v (before ++ [i]) rest) (hkeyed : u.IsKeyed)
    (hchoose : toolchainOf? table.toolchains u = some t)
    (hunit : ofUnit table options u t host w = .ok i v) (hfor : IsFor table options (u, t) i)
    (hlog : Event.perform host w (.allocate i.log) = some v) (hfree : ¬Blocks host w 0 u) :
    Made table options host w₀ w before (u :: rest) := by
  obtain ⟨calls, v', hrest, hcalls, hsince, hnone⟩ := h
  rw [← List.append_cons] at hrest hsince
  rw [Made, served_cons_of_some hchoose, extend_cons_of_ok hkeyed hchoose hunit]
  refine ⟨i :: calls, v', hrest, .cons hfor hcalls, hsince, fun k pair hpair => ?_⟩
  cases k with
  | zero =>
    obtain rfl := Option.some.inj hpair
    exact hfree
  | succ k =>
    rw [← blocks_of_allocate hlog]
    exact hnone k pair hpair

theorem Refused.cons_of_none {rest : List CompileUnit}
    (h : Refused table options host w₀ w before rest) (hkeyed : u.IsKeyed)
    (hchoose : toolchainOf? table.toolchains u = none) :
    Refused table options host w₀ w before (u :: rest) := by
  obtain ⟨fault, v, n, hrun, hundone, hcause⟩ := h
  rw [Refused, served_cons_of_none hchoose, extend_cons_of_none hkeyed hchoose]
  refine ⟨fault, v, n, hrun, hundone, hcause.imp_left ?_⟩
  rintro ⟨other, hother, hunkeyed⟩
  exact ⟨other, List.mem_cons_of_mem _ hother, hunkeyed⟩

theorem Refused.cons_of_ok {rest : List CompileUnit}
    (h : Refused table options host w₀ v (before ++ [i]) rest) (hkeyed : u.IsKeyed)
    (hchoose : toolchainOf? table.toolchains u = some t)
    (hunit : ofUnit table options u t host w = .ok i v)
    (hlog : Event.perform host w (.allocate i.log) = some v) (hfree : ¬Blocks host w 0 u) :
    Refused table options host w₀ w before (u :: rest) := by
  obtain ⟨fault, v', n, hrest, hundone, hcause⟩ := h
  have hlength : (before ++ [i]).length + n = before.length + (n + 1) := by
    rw [List.length_append, List.length_singleton]
    omega
  rw [hlength] at hundone
  rw [Refused, served_cons_of_some hchoose, extend_cons_of_ok hkeyed hchoose hunit]
  refine ⟨fault, v', n + 1, hrest, hundone, ?_⟩
  rcases hcause with ⟨other, hother, hunkeyed⟩ | ⟨other, hfirst, hfault⟩
  · exact .inl ⟨other, List.mem_cons_of_mem _ hother, hunkeyed⟩
  · exact .inr ⟨other, hfirst.succ hlog hfree, hfault⟩

/-- **The calls for some units**, after others, are made or refused. -/
theorem made_or_refused (hcomplete : table.IsComplete) (options : Options) (host : Host)
    (units : List CompileUnit) (h : Since w₀ before w) :
    Made table options host w₀ w before units ∨ Refused table options host w₀ w before units := by
  induction units generalizing before w with
  | nil => exact .inl (.nil h)
  | cons u rest ih =>
    by_cases hkeyed : u.IsKeyed
    · cases hchoose : toolchainOf? table.toolchains u with
      | none => exact (ih h).imp (·.cons_of_none hkeyed hchoose) (·.cons_of_none hkeyed hchoose)
      | some t =>
        have hchosen : Configuration.step (toolchainFor? table.toolchains u) = .ok (some t) := by
          rw [toolchainFor?_of_isKeyed _ hkeyed, hchoose]
          rfl
        obtain ⟨language, ht⟩ := toolchainFor?_eq_ok_some hchosen
        rcases ofUnit_run options u host w (hcomplete language t ht) with
          ⟨hblocks, fault, hfault, hunit⟩ | ⟨hfree, i, v, hunit, hfor, hlog⟩
        · obtain ⟨v, hrun, hundone⟩ := extend_cons_of_error h hkeyed hchoose hunit rest
          refine .inr ⟨fault, v, 0, hrun, hundone, .inr ⟨u, ?_, hfault⟩⟩
          rw [served_cons_of_some hchoose]
          exact isFirstBlock_zero hblocks _
        · exact (ih (h.concat hlog)).imp
            (·.cons_of_ok hkeyed hchoose hunit hfor hlog hfree)
            (·.cons_of_ok hkeyed hchoose hunit hlog hfree)
    · obtain ⟨fault, v, hrun, hundone⟩ := extend_cons_of_not_isKeyed h hkeyed rest
      exact .inr ⟨fault, v, 0, hrun, hundone, .inl ⟨u, List.mem_cons_self, hkeyed⟩⟩

/-! ## The two ends of a run -/

section

variable {settings : Options} {env : Environment} {host₀ : Host} {v₀ : World}

/-- **Every unit that has a toolchain gets one call**, in the order of the units, and every call a
log of its own: a new and empty file where nothing stood.  No other log comes. -/
theorem ofUnits_calls (hbuild : Table.build toolchains settings env host₀ w₀ = .ok table v₀)
    (h : ofUnits units table options host w = .ok calls v) :
    List.Forall₂ (IsFor table options) (served table.toolchains units) calls ∧
      v.logs = w.logs ++ logs calls ∧ (logs calls).Nodup ∧
      ∀ log ∈ logs calls, w.disk.isThere log = false ∧ v.disk.look? log = some (.file []) := by
  rcases made_or_refused (Table.build_isComplete hbuild) options host units (Since.refl w) with
    ⟨calls', v', hrun, hfor, hsince, -⟩ | ⟨fault, v', n, hrun, -⟩
  · rw [List.nil_append] at hrun hsince
    cases hrun.symm.trans h
    exact ⟨hfor, hsince.listed, hsince.gains.nodup, fun log hlog =>
      ⟨hsince.gains.fresh log hlog, hsince.gains.empty log hlog⟩⟩
  · cases hrun.symm.trans h

/-- The table of one compiler for C. -/
def oneTable : Table where
  toolchains := [("C", Table.compilerFor "C")]
  shared := [{
    compiler := (Table.compilerFor "C").compiler
    arguments := ["/analyze:only", "/analyze:quiet", "/analyze:log:format:sarif", "/nologo",
      "/analyze:plugin/m/T/bin/Hostx64/x64/EspXEngine.dll", "/external:W0", "/analyze:external-"]
    environment := CompilerEnvironment.inherited [] }]

theorem build_oneTable : ∃ v, Table.build [("C", Table.compilerFor "C")]
    { loadCompilerEnvironment := false } [] Table.promptingHost ⟨Table.bothDisk, [], [], []⟩ =
      .ok oneTable v := ⟨_, rfl⟩

/-- A unit in a language, with flags. -/
def unitIn (language source flags : Text) : CompileUnit :=
  ⟨source, .string language, flags, .string "11", [⟨.string "/i", true⟩], [.string "D"]⟩

/-- A disk with nothing but the directory for logs. -/
def tmpDisk : Disk := ⟨[], [(["tmp"], .directory)]⟩

/-- Three units, the second of them without a toolchain and with flags that cannot be cut. -/
def threeUnits : List CompileUnit :=
  [unitIn "C" "/a.c" "/O2 \"x y\"", unitIn "RC" "/b.rc" "\"", unitIn "C" "/c.c" []]

theorem ofUnits_calls_threeUnits : ∃ calls v,
    ofUnits threeUnits oneTable {} Table.promptingHost ⟨tmpDisk, [], [], []⟩ = .ok calls v ∧
      List.Forall₂ (IsFor oneTable {}) [(unitIn "C" "/a.c" "/O2 \"x y\"", Table.compilerFor "C"),
        (unitIn "C" "/c.c" [], Table.compilerFor "C")] calls ∧
      (logs calls).Nodup := by
  obtain ⟨v₀, hbuild⟩ := build_oneTable
  have hok : ((ofUnits threeUnits oneTable {}).result Table.promptingHost
      ⟨tmpDisk, [], [], []⟩).isOk = true := by decide +kernel
  obtain ⟨calls, v, h⟩ := Action.exists_run_of_isOk hok
  obtain ⟨hfor, -, hnodup, -⟩ := ofUnits_calls hbuild h
  exact ⟨calls, v, h, hfor, hnodup⟩

/-- **All calls or no trace.**  A fault leaves at every path what stood there before, and none of
the logs that were allocated.  If all languages can be looked up, the calls fail exactly if some unit
that has a toolchain blocks them; the first that does decides the fault, and a log was allocated for
each before it. -/
theorem ofUnits_fault (hbuild : Table.build toolchains settings env host₀ w₀ = .ok table v₀)
    (units : List CompileUnit) (options : Options) (host : Host) (w : World) :
    (∀ fault v, ofUnits units table options host w = .error fault v → ∃ n, Undone w n v) ∧
    ((∀ u ∈ units, u.IsKeyed) →
      ((∃ fault v, ofUnits units table options host w = .error fault v) ↔
        ∃ k pair, (served table.toolchains units)[k]? = some pair ∧ Blocks host w k pair.1) ∧
      ∀ fault v, ofUnits units table options host w = .error fault v → ∃ k u,
        IsFirstBlock host w (served table.toolchains units) k u ∧ IsFaultOf u fault ∧
          Undone w k v) := by
  rcases made_or_refused (Table.build_isComplete hbuild) options host units (Since.refl w) with
    ⟨calls, v', hrun, -, -, hnone⟩ | ⟨fault, v', n, hrun, hundone, hcause⟩
  · have hok : ∀ fault v, ofUnits units table options host w ≠ .error fault v := fun fault v h =>
      nomatch hrun.symm.trans h
    refine ⟨fun fault v h => absurd h (hok fault v), fun _ => ⟨iff_of_false ?_ ?_, fun fault v h =>
      absurd h (hok fault v)⟩⟩
    · rintro ⟨fault, v, h⟩
      exact hok fault v h
    · rintro ⟨k, pair, hpair, hblocks⟩
      exact hnone k pair hpair hblocks
  · rw [List.length_nil, Nat.zero_add] at hundone
    have hsame : ∀ fault₁ v₁, ofUnits units table options host w = .error fault₁ v₁ →
        fault₁ = fault ∧ v₁ = v' := by
      intro fault₁ v₁ h
      cases hrun.symm.trans h
      exact ⟨rfl, rfl⟩
    refine ⟨fun fault₁ v₁ h => ⟨n, (hsame _ _ h).2 ▸ hundone⟩, fun hkeyed => ?_⟩
    rcases hcause with ⟨u, hu, hunkeyed⟩ | ⟨u, hfirst, hfault⟩
    · exact absurd (hkeyed u hu) hunkeyed
    · refine ⟨iff_of_true ⟨fault, v', hrun⟩ ?_, fun fault₁ v₁ h => ?_⟩
      · obtain ⟨t, ht⟩ := hfirst.unit
        exact ⟨n, (u, t), ht, hfirst.blocks⟩
      · obtain ⟨rfl, rfl⟩ := hsame fault₁ v₁ h
        exact ⟨n, u, hfirst, hfault, hundone⟩

/-- A host with room for one log. -/
def oneLogHost : Host := { Table.promptingHost with logLimit := some 1 }

theorem ofUnits_fault_threeUnits : ∃ cause v,
    ofUnits threeUnits oneTable {} oneLogHost ⟨tmpDisk, [], [], []⟩ =
        .error (.failure (.synthesis (.noLog cause))) v ∧
      Undone ⟨tmpDisk, [], [], []⟩ 1 v := by
  obtain ⟨v₀, hbuild⟩ := build_oneTable
  have hkeyed : ∀ u ∈ threeUnits, u.IsKeyed := by
    intro u hu
    rcases List.mem_cons.1 hu with rfl | hu
    · trivial
    rcases List.mem_cons.1 hu with rfl | hu
    · trivial
    obtain rfl := List.mem_singleton.1 hu
    trivial
  have hfirst : IsFirstBlock oneLogHost ⟨tmpDisk, [], [], []⟩
      (served oneTable.toolchains threeUnits) 1 (unitIn "C" "/c.c" []) := by
    refine ⟨⟨Table.compilerFor "C", rfl⟩, .inr (.inl rfl), fun j hj pair hpair => ?_⟩
    obtain rfl : j = 0 := by omega
    obtain rfl := Option.some.inj hpair
    exact not_or.2 ⟨by decide, not_or.2 ⟨by decide, by decide⟩⟩
  obtain ⟨hiff, hfault⟩ := (ofUnits_fault hbuild threeUnits {} oneLogHost
    ⟨tmpDisk, [], [], []⟩).2 hkeyed
  obtain ⟨fault, v, h⟩ := hiff.2 ⟨1, _, rfl, hfirst.blocks⟩
  obtain ⟨k, u, hfirst', hcause, hundone⟩ := hfault fault v h
  obtain ⟨rfl, rfl⟩ := hfirst.unique hfirst'
  rcases hcause with ⟨hodd, -⟩ | ⟨-, cause, rfl⟩
  · exact absurd hodd (by decide)
  · exact ⟨cause, v, h, hundone⟩

end

end Invocation

end BuildLint

import BuildLint.Proofs.Report.Merge
import Mathlib.Data.List.Perm.Basic

/-!
# Proofs/Report/Reordering — the order of logs decides what is kept, not what is found

Logs may come in any order, and so may the runs of a log and the results of a run
(`Log.IsReordered`).  Merging then meets the same things, one by one with the same offence and the
same result (`traces_perm`), only in another order: it fails or succeeds as before, and keeps as
many results, for the same findings.

* `merge_reordered` — the findings do not depend on the order.
-/

namespace BuildLint

/-! ## Lists in another order -/

/-- **The same entries in another order**, each of them changed as `R` says. -/
def Reordered {α β : Type*} (R : α → β → Prop) : List α → List β → Prop :=
  Relation.Comp List.Perm (List.Forall₂ R)

namespace Reordered

variable {α β γ : Type*} {R : α → β → Prop} {l : List α} {m : List β}

theorem refl {R : α → α → Prop} (hR : ∀ a, R a a) (l : List α) : Reordered R l l :=
  ⟨l, .refl l, List.forall₂_same.2 fun a _ => hR a⟩

theorem length_eq (h : Reordered R l m) : l.length = m.length := by
  obtain ⟨k, hperm, hall⟩ := h
  rw [hperm.length_eq, hall.length_eq]

theorem all_eq {p : α → Bool} {q : β → Bool} (h : Reordered R l m)
    (hpq : ∀ a b, R a b → p a = q b) : l.all p = m.all q := by
  obtain ⟨k, hperm, hall⟩ := h
  rw [hperm.all_eq]
  clear hperm
  induction hall with
  | nil => rfl
  | cons hab _ ih => rw [List.all_cons, List.all_cons, hpq _ _ hab, ih]

/-- **What the entries list** comes in another order too. -/
theorem flatMap_perm {f : α → List γ} {g : β → List γ} (h : Reordered R l m)
    (hfg : ∀ a b, R a b → (f a).Perm (g b)) : (l.flatMap f).Perm (m.flatMap g) := by
  obtain ⟨k, hperm, hall⟩ := h
  refine (hperm.flatMap_right f).trans ?_
  clear hperm
  induction hall with
  | nil => exact .nil
  | cons hab _ ih =>
    rw [List.flatMap_cons, List.flatMap_cons]
    exact (hfg _ _ hab).append ih

end Reordered

/-- **An object whose member is a list in another order**, the same object otherwise.  Any value
may also be left as it is. -/
inductive Json.ReorderedUnder (key : Text) (R : Json → Json → Prop) : Json → Json → Prop
  | same (v : Json) : ReorderedUnder key R v v
  | list {members : Members} {items others : List Json}
      (listed : Keyed.get? members key = some (.array items)) (h : Reordered R items others) :
      ReorderedUnder key R (.object members) (.object (Keyed.set members key (.array others)))

namespace Log

/-- The results of a run in another order. -/
def IsReorderedRun : Json → Json → Prop := Json.ReorderedUnder "results" Eq

/-- **The runs of a log in another order**, and the results of each. -/
def IsReordered : Json → Json → Prop := Json.ReorderedUnder "runs" IsReorderedRun

variable {key : Text} {R : Json → Json → Prop} {v w : Json}

theorem isObject_of_reorderedUnder (h : Json.ReorderedUnder key R v w) :
    isObject v = isObject w := by
  cases h <;> rfl

/-- The member is as it was, or a list in another order. -/
theorem memberOf_of_reorderedUnder (h : Json.ReorderedUnder key R v w) :
    memberOf key v = memberOf key w ∨
      ∃ items others, memberOf key v = .array items ∧ memberOf key w = .array others ∧
        Reordered R items others := by
  cases h with
  | same => exact .inl rfl
  | @list members items others listed h =>
    refine .inr ⟨items, others, ?_, ?_, h⟩
    · rw [memberOf, listed]
      rfl
    · rw [memberOf, Keyed.get?_set_self]
      rfl

theorem listUnder_of_reorderedUnder (hR : ∀ a, R a a) (h : Json.ReorderedUnder key R v w) :
    Reordered R (listUnder key v) (listUnder key w) := by
  rw [listUnder, listUnder]
  rcases memberOf_of_reorderedUnder h with heq | ⟨items, others, hv, hw, hlist⟩
  · rw [heq]
    exact .refl hR _
  · rw [hv, hw]
    exact hlist

/-- A test that does not look at the order is violated as before. -/
theorem violates_of_reorderedUnder (test : Json → Bool) (h : Json.ReorderedUnder key R v w)
    (htest : ∀ items others, Reordered R items others →
      test (.array items) = test (.array others)) :
    violates test key v = violates test key w := by
  rw [violates, violates]
  rcases memberOf_of_reorderedUnder h with heq | ⟨items, others, hv, hw, hlist⟩
  · rw [heq]
  · have hempty : items.isEmpty = others.isEmpty := by
      rw [Bool.eq_iff_iff, List.isEmpty_iff_length_eq_zero, List.isEmpty_iff_length_eq_zero,
        hlist.length_eq]
    rw [hv, hw, htest items others hlist, Json.isTruthy, Json.isTruthy, hempty]

end Log

/-! ## Encounters in another order -/

namespace Encounter

/-- What counts of an encounter: its offence, and its result. -/
def trace (e : Encounter) : Option AggregationCause × Option Json := (e.offence?, e.result?)

variable {run log other : Json}

/-- **A run with its results in another order** is met with its results in another order. -/
theorem traces_ofRun_perm (h : Log.IsReorderedRun run other) :
    ((ofRun run).map trace).Perm ((ofRun other).map trace) := by
  have hviolates := Log.violates_of_reorderedUnder Log.isList h fun _ _ _ => rfl
  have hrun : (Encounter.run run).trace = (Encounter.run other).trace := by
    rw [trace, trace, offence?, offence?, hviolates]
    rfl
  have hresults : (Log.listedResults run).Perm (Log.listedResults other) := by
    obtain ⟨k, hperm, hall⟩ := Log.listUnder_of_reorderedUnder (fun _ => rfl) h
    rw [List.forall₂_eq_eq_eq] at hall
    rwa [hall] at hperm
  rw [ofRun, ofRun, List.map_cons, List.map_cons, hrun]
  exact ((hresults.map _).map _).cons _

/-- **A log in another order** is met in another order. -/
theorem traces_ofLog_perm (h : Log.IsReordered log other) :
    ((ofLog log).map trace).Perm ((ofLog other).map trace) := by
  have hviolates := Log.violates_of_reorderedUnder Log.isObjectList h
    fun items others hlist => hlist.all_eq fun _ _ hrun => Log.isObject_of_reorderedUnder hrun
  have hlog : (Encounter.log log).trace = (Encounter.log other).trace := by
    rw [trace, trace, offence?, offence?, hviolates, Log.isObject_of_reorderedUnder h]
    rfl
  have hruns := Log.listUnder_of_reorderedUnder (fun run => .same run) h
  rw [ofLog, ofLog, List.map_cons, List.map_cons, hlog, List.map_flatMap, List.map_flatMap]
  exact (hruns.flatMap_perm fun _ _ => traces_ofRun_perm).cons _

/-- **Logs in another order** are met in another order. -/
theorem traces_perm {logs others : List Json} (h : Reordered Log.IsReordered logs others) :
    ((ofLogs logs).map trace).Perm ((ofLogs others).map trace) := by
  rw [ofLogs, ofLogs, List.map_flatMap, List.map_flatMap]
  exact h.flatMap_perm fun _ _ => traces_ofLog_perm

/-- Whether anything offends can be read off the traces. -/
theorem forall_offence?_eq_none_iff (es : List Encounter) :
    (∀ e ∈ es, e.offence? = none) ↔ ∀ t ∈ es.map trace, t.1 = none := by
  rw [List.forall_mem_map]
  rfl

theorem filterMap_result?_eq (es : List Encounter) :
    es.filterMap result? = (es.map trace).filterMap Prod.snd := by
  rw [List.filterMap_map]
  rfl

end Encounter

/-! ## The same findings -/

namespace Report

variable {r s : Report} {logs others : List Json}

theorem IsMergeOf.length_findings {runs results : List Json} (h : IsMergeOf runs results r) :
    r.findings.length = r.results.length := by
  have hlength := congrArg List.length h.findings
  rwa [List.length_map, List.length_map] at hlength

/-- Logs in another order list the same results in another order. -/
theorem listedResults_perm (h : Reordered Log.IsReordered logs others) :
    ((logs.flatMap Log.listedRuns).flatMap Log.listedResults).Perm
      ((others.flatMap Log.listedRuns).flatMap Log.listedResults) := by
  rw [← Encounter.filterMap_result?_ofLogs, ← Encounter.filterMap_result?_ofLogs,
    Encounter.filterMap_result?_eq, Encounter.filterMap_result?_eq]
  exact (Encounter.traces_perm h).filterMap _

/-- **The findings do not depend on the order** of the logs, of the runs in a log, and of the
results in a run: merging succeeds in one order if it does in another, and gives as many results,
for the same findings. -/
theorem merge_reordered (h : Reordered Log.IsReordered logs others) :
    ((∃ r, merge logs = .ok r) ↔ ∃ s, merge others = .ok s) ∧
    ∀ r s, merge logs = .ok r → merge others = .ok s →
      (∀ k, k ∈ r.findings.map Finding.key ↔ k ∈ s.findings.map Finding.key) ∧
      r.results.length = s.results.length := by
  constructor
  · rw [exists_merge_eq_ok_iff, exists_merge_eq_ok_iff, Encounter.forall_offence?_eq_none_iff,
      Encounter.forall_offence?_eq_none_iff]
    exact forall_congr' fun t => imp_congr_left (Encounter.traces_perm h).mem_iff
  intro r s hr hs
  have hr := isMergeOf_of_merge hr
  have hs := isMergeOf_of_merge hs
  have hkeys : ∀ k, k ∈ r.findings.map Finding.key ↔ k ∈ s.findings.map Finding.key := by
    intro k
    rw [hr.mem_keys_iff, hs.mem_keys_iff]
    exact ((listedResults_perm h).map _).mem_iff
  refine ⟨hkeys, ?_⟩
  have hperm := (List.perm_ext_iff_of_nodup hr.distinct hs.distinct).2 hkeys
  rw [← hr.length_findings, ← hs.length_findings, ← List.length_map (f := Finding.key),
    hperm.length_eq, List.length_map]

/-! ### Two logs -/

/-- A result at the first column of a line. -/
def resultAt (line : Int) : Json := .object [
  ("ruleId", .string "C6001"), ("message", .object [("text", .string "m")]),
  ("locations", .array [.object [("physicalLocation", .object [
    ("artifactLocation", .object [("uri", .string "a.cpp")]),
    ("region", .object [("startLine", .int line), ("startColumn", .int 1)])])]])]

/-- A log of two runs with some results each. -/
def logOf (first second : List Json) : Json :=
  .object [("runs", .array [
    .object [("results", .array first)], .object [("results", .array second)]])]

theorem merge_reordered_twoLogs :
    ∃ r s, merge [logOf [resultAt 1, resultAt 2] [], logOf [resultAt 2] [resultAt 3]] = .ok r ∧
      merge [logOf [resultAt 3] [resultAt 2], logOf [] [resultAt 2, resultAt 1]] = .ok s ∧
      (∀ k, k ∈ r.findings.map Finding.key ↔ k ∈ s.findings.map Finding.key) ∧
      r.results.length = s.results.length := by
  have hrun : ∀ results others : List Json, results.Perm others →
      Log.IsReorderedRun (.object [("results", .array results)])
        (.object [("results", .array others)]) := by
    intro results others hperm
    exact .list rfl ⟨others, hperm, List.forall₂_same.2 fun _ _ => rfl⟩
  have hlog : ∀ first second others more : List Json, first.Perm others → second.Perm more →
      Log.IsReordered (logOf first second) (logOf more others) := by
    intro first second others more hfirst hsecond
    exact .list rfl ⟨_, .swap .., .cons (hrun _ _ hsecond) (.cons (hrun _ _ hfirst) .nil)⟩
  have h : Reordered Log.IsReordered
      [logOf [resultAt 1, resultAt 2] [], logOf [resultAt 2] [resultAt 3]]
      [logOf [resultAt 3] [resultAt 2], logOf [] [resultAt 2, resultAt 1]] :=
    ⟨_, .swap .., .cons (hlog _ _ _ _ (.refl _) (.refl _))
      (.cons (hlog _ _ _ _ (.swap ..) (.refl _)) .nil)⟩
  obtain ⟨r, hr⟩ : ∃ r, merge [logOf [resultAt 1, resultAt 2] [],
      logOf [resultAt 2] [resultAt 3]] = .ok r := ⟨_, rfl⟩
  obtain ⟨s, hs⟩ := (merge_reordered h).1.1 ⟨r, hr⟩
  exact ⟨r, s, hr, hs, (merge_reordered h).2 r s hr hs⟩

end Report

end BuildLint

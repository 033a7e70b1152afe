import BuildLint.Proofs.CMake.CodeModel

/-!
# Proofs/CMake/Configuration — the configuration that a build is analysed in

A code model lists configurations, and one is chosen by its name alone.  Which one fits a name, and
when none does, is said of the names; the choice is then what it is said to be, for every list of
documents that describe configurations.

* `Fits`, `NoneFits` — the configuration that fits a name, if any does; `Fits.unique`.
* `select_cases` — what is chosen, or which failure there is.
-/

namespace BuildLint

namespace BuildConfiguration

/-! ## What fits a name -/

/-- **No configuration fits a name**: there are several, and no name is given or none has it, or
there is only one, and another name is given. -/
def NoneFits (name : Text) (configurations : List BuildConfiguration) : Prop :=
  (1 < configurations.length ∧ (name = [] ∨ ∀ c ∈ configurations, c.name ≠ name)) ∨
    ∃ c, configurations = [c] ∧ name ≠ [] ∧ c.name ≠ name

/-- **The configuration that fits a name**: the only one, or the first of several that has it. -/
inductive Fits (name : Text) : List BuildConfiguration → BuildConfiguration → Prop
  | only {c : BuildConfiguration} (h : name = [] ∨ c.name = name) : Fits name [c] c
  | first {before after : List BuildConfiguration} {c : BuildConfiguration}
      (several : 1 < (before ++ c :: after).length) (given : name ≠ []) (named : c.name = name)
      (others : ∀ b ∈ before, b.name ≠ name) : Fits name (before ++ c :: after) c

variable {name : Text} {cs : List BuildConfiguration} {c : BuildConfiguration}

theorem not_noneFits_nil : ¬NoneFits name [] := by
  rintro (⟨h, -⟩ | ⟨c, h, -⟩)
  · simp at h
  · cases h

theorem Fits.not_noneFits (h : Fits name cs c) : ¬NoneFits name cs := by
  cases h with
  | only h =>
    rintro (⟨hlength, -⟩ | ⟨d, hd, hgiven, hne⟩)
    · simp at hlength
    · obtain rfl := List.singleton_inj.1 hd
      exact h.elim hgiven hne
  | first several given named =>
    rintro (⟨-, hnone⟩ | ⟨d, hd, -⟩)
    · exact hnone.elim given fun hne => hne c (by simp) named
    · rw [hd] at several
      simp at several

theorem Fits.mem (h : Fits name cs c) : c ∈ cs := by
  cases h <;> simp

/-- The configuration that fits is one only. -/
theorem Fits.unique {b : BuildConfiguration} (hb : Fits name cs b) (hc : Fits name cs c) :
    b = c := by
  by_cases several : 1 < cs.length
  · have hfind : ∀ a, Fits name cs a → cs.find? (fun a => a.name = name) = some a := by
      intro a ha
      cases ha with
      | only => simp at several
      | first _ _ named others =>
        rw [List.find?_append, List.find?_eq_none.2 (by simpa using others)]
        simp [named]
    exact Option.some.inj ((hfind b hb).symm.trans (hfind c hc))
  · cases hb with
    | only => exact (List.mem_singleton.1 hc.mem).symm
    | first several' => exact absurd several' several

end BuildConfiguration

namespace Configuration

open BuildConfiguration

/-! ## The choice -/

variable {name : Text} {v : Json} {items : List Json} {cs : List BuildConfiguration}

theorem isNamed_eq_ok {c : BuildConfiguration} (h : c.DescribedBy v) (name : Text) :
    isNamed name v = .ok (decide (c.name = name)) := by
  rw [isNamed, Json.lookup_of_lookup? (Json.lookup?_of_field h.name)]
  rfl

/-- The configurations that have a name. -/
theorem exists_named (h : List.Forall₂ BuildConfiguration.DescribedBy items cs) (name : Text) :
    ∃ kept, named name items = .ok kept ∧
      List.Forall₂ BuildConfiguration.DescribedBy kept (cs.filter fun c => c.name = name) := by
  induction h with
  | nil => exact ⟨[], rfl, .nil⟩
  | @cons v c _ _ hc _ ih =>
    obtain ⟨kept, hkept, hall⟩ := ih
    rw [named, isNamed_eq_ok hc, hkept]
    by_cases hname : c.name = name
    · refine ⟨v :: kept, by simp [hname, bind, Except.bind, pure, Except.pure], ?_⟩
      simpa [hname] using ⟨hc, hall⟩
    · refine ⟨kept, by simp [hname, bind, Except.bind, pure, Except.pure], ?_⟩
      simpa [hname] using hall

/-- Of one configuration, that one is chosen unless another name is given. -/
theorem select_singleton {c : BuildConfiguration} (h : c.DescribedBy v) (name : Option Text) :
    select (.array [v]) name =
      if name.getD [] = [] ∨ c.name = name.getD [] then .ok v
      else .error (.failure (.configuration (.configurationMismatch (.string c.name)))) := by
  have htruthy : (Json.array [v]).isTruthy = true := rfl
  have hcount : count (.array [v]) = .ok 1 := rfl
  have honly : (Json.array [v]).element (.int 0) = .ok v := rfl
  have hlookup := Json.lookup_of_lookup? (Json.lookup?_of_field h.name)
  simp only [select, htruthy, hcount, honly, isNamed_eq_ok h, hlookup, step, Except.mapError, bind,
    Except.bind, Bool.not_true, Bool.false_eq_true, if_false, Nat.lt_irrefl, decide_eq_true_eq]
  by_cases hnone : name.getD [] = []
  · rw [if_pos hnone, if_pos (.inl hnone)]
    rfl
  · by_cases hname : c.name = name.getD []
    · rw [if_neg hnone, if_pos hname, if_pos (.inr hname)]
      rfl
    · rw [if_neg hnone, if_neg hname, if_neg (not_or.2 ⟨hnone, hname⟩)]
      rfl

/-- Of several configurations, the first with the name is chosen. -/
theorem select_several (hlength : 1 < items.length) {name : Option Text}
    (hkept : named (name.getD []) items = .ok kept) :
    select (.array items) name =
      if name.getD [] = [] then .error (.failure (.configuration .configurationRequired))
      else kept.head?.elim (.error (.failure (.configuration .configurationUnknown))) .ok := by
  have htruthy : (Json.array items).isTruthy = true := by
    cases items with
    | nil => simp at hlength
    | cons => rfl
  have hcount : count (.array items) = .ok items.length := rfl
  simp only [select, htruthy, hcount, hkept, step, Except.mapError, bind, Except.bind, Json.iterate,
    hlength, Bool.not_true, Bool.false_eq_true, if_false, if_true]
  by_cases hnone : name.getD [] = []
  · rw [if_pos hnone, if_pos hnone]
    rfl
  · rw [if_neg hnone, if_neg hnone]
    cases kept <;> rfl

/-- **Choosing a configuration**: there is none, none fits the name, or the one that fits is
chosen. -/
theorem select_cases (h : List.Forall₂ BuildConfiguration.DescribedBy items cs)
    (name : Option Text) :
    (cs = [] ∧ select (.array items) name = .error (.failure (.metadata .noConfigurations))) ∨
    (NoneFits (name.getD []) cs ∧
      ∃ cause, select (.array items) name = .error (.failure (.configuration cause))) ∨
    ∃ c v, Fits (name.getD []) cs c ∧ c.DescribedBy v ∧ select (.array items) name = .ok v := by
  have hlength := h.length_eq
  obtain ⟨kept, hkept, hall⟩ := exists_named h (name.getD [])
  cases h with
  | nil => exact .inl ⟨rfl, rfl⟩
  | @cons v c items cs hc hrest =>
    right
    cases hrest with
    | nil =>
      rw [select_singleton hc]
      by_cases hname : name.getD [] = [] ∨ c.name = name.getD []
      · rw [if_pos hname]
        exact .inr ⟨c, v, .only hname, hc, rfl⟩
      · rw [if_neg hname]
        rw [not_or] at hname
        exact .inl ⟨.inr ⟨c, rfl, hname⟩, _, rfl⟩
    | @cons w d items cs hd hrest =>
      have hseveral : 1 < (c :: d :: cs).length := by simp
      have hselect := select_several (hlength ▸ hseveral) hkept
      rw [hselect]
      by_cases hnone : name.getD [] = []
      · rw [if_pos hnone]
        exact .inl ⟨.inl ⟨hseveral, .inl hnone⟩, _, rfl⟩
      rw [if_neg hnone]
      -- the configurations with the name, the first of which is chosen
      cases hfilter : (c :: d :: cs).filter fun b => b.name = name.getD [] with
      | nil =>
        rw [hfilter] at hall
        obtain rfl := List.forall₂_nil_right_iff.1 hall
        refine .inl ⟨.inl ⟨hseveral, .inr ?_⟩, _, rfl⟩
        intro b hb
        simpa using List.filter_eq_nil_iff.1 hfilter b hb
      | cons b rest =>
        rw [hfilter] at hall
        obtain ⟨u, _, hu, -, rfl⟩ := List.forall₂_cons_right_iff.1 hall
        obtain ⟨before, after, heq, hbefore, hb, -⟩ := List.filter_eq_cons_iff.1 hfilter
        rw [heq] at hseveral ⊢
        exact .inr ⟨b, u, .first hseveral hnone (of_decide_eq_true hb)
          (fun a ha => by simpa using hbefore a ha), hu, rfl⟩

end Configuration

end BuildLint

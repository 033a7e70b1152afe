import BuildLint.Text.Blank
import Mathlib.Data.List.Basic
import Mathlib.Data.List.TakeWhile

/-!
# Proofs/Text/Trimming — what is dropped from the ends of a text

Dropping a class of code points from one end cuts a text in two, and what stands on either side of
the cut says where it is.  A text that is not blank is a **core** with white space around it;
trimming leaves the core, and more white space around the text does not change it.

* `stripRight_append`, `exists_stripRight_append` — what is dropped from the end of a text.
* `Pads`, `IsCore` — white space around a text, and a text without it.
* `IsCore.trim_eq`, `isCore_trim` — what trimming leaves is the core.
-/

namespace BuildLint

namespace Text

variable {p : CodePoint → Bool} {t u core padded : Text}

/-! ## Dropping a class from one end -/

/-- What stands at the end of a text, behind the last code point of another kind. -/
theorem reverse_takeWhile_reverse_append (hu : ∀ c ∈ u, p c = true)
    (ht : ∀ c ∈ t.getLast?, p c = false) : ((t ++ u).reverse.takeWhile p).reverse = u := by
  rw [List.reverse_append, List.takeWhile_append_of_pos fun c hc => hu c (List.mem_reverse.1 hc)]
  have hstop : t.reverse.takeWhile p = [] := by
    cases hlast : t.reverse with
    | nil => rfl
    | cons c rest =>
      refine List.takeWhile_cons_of_neg ?_
      rw [ht c (by rw [List.getLast?_eq_head?_reverse, hlast]; rfl)]
      exact Bool.false_ne_true
  rw [hstop, List.append_nil, List.reverse_reverse]

theorem stripRight_append (hu : ∀ c ∈ u, p c = true) (ht : ∀ c ∈ t.getLast?, p c = false) :
    (t ++ u).stripRight p = t := by
  have hcut := @List.takeWhile_append_dropWhile _ p (t ++ u).reverse
  rw [← List.reverse_inj, List.reverse_append, reverse_takeWhile_reverse_append hu ht,
    List.reverse_reverse] at hcut
  exact List.append_cancel_right hcut

theorem not_of_mem_head?_dropWhile (p : CodePoint → Bool) (t : Text) :
    ∀ c ∈ (t.dropWhile p).head?, p c = false := by
  intro c hc
  have hnot := List.head?_dropWhile_not p t
  rwa [Option.mem_def.1 hc] at hnot

theorem not_of_mem_getLast?_stripRight (p : CodePoint → Bool) (t : Text) :
    ∀ c ∈ (t.stripRight p).getLast?, p c = false := by
  rw [stripRight, List.getLast?_reverse]
  exact not_of_mem_head?_dropWhile p t.reverse

/-- What is dropped from the end is all of the class. -/
theorem exists_stripRight_append (p : CodePoint → Bool) (t : Text) :
    ∃ after, (∀ c ∈ after, p c = true) ∧ t.stripRight p ++ after = t := by
  refine ⟨(t.reverse.takeWhile p).reverse, fun c hc => ?_, ?_⟩
  · exact List.mem_takeWhile_imp (List.mem_reverse.1 hc)
  · rw [stripRight, ← List.reverse_append, List.takeWhile_append_dropWhile, List.reverse_reverse]

/-! ## White space around a text -/

/-- **White space around a text**, on either side, on both or on none. -/
def Pads (t padded : Text) : Prop :=
  ∃ before after : Text, before.isBlank = true ∧ after.isBlank = true ∧
    padded = before ++ t ++ after

/-- **The core of a text**: there is nothing but white space around it, and none begins or ends
it. -/
structure IsCore (t core : Text) : Prop where
  pads : Pads core t
  nonempty : core ≠ []
  starts : ∀ c ∈ core.head?, c.isBlank = false
  ends : ∀ c ∈ core.getLast?, c.isBlank = false

theorem isBlank_append (t u : Text) : (t ++ u).isBlank = (t.isBlank && u.isBlank) :=
  List.all_append

namespace Pads

theorem isBlank_eq (h : Pads t padded) : padded.isBlank = t.isBlank := by
  obtain ⟨before, after, hbefore, hafter, rfl⟩ := h
  rw [isBlank_append, isBlank_append, hbefore, hafter, Bool.true_and, Bool.and_true]

theorem trans (h : Pads core t) (h' : Pads t padded) : Pads core padded := by
  obtain ⟨before, after, hbefore, hafter, rfl⟩ := h
  obtain ⟨before', after', hbefore', hafter', rfl⟩ := h'
  refine ⟨before' ++ before, after ++ after', ?_, ?_, by simp only [List.append_assoc]⟩
  · rw [isBlank_append, hbefore, hbefore', Bool.true_and]
  · rw [isBlank_append, hafter, hafter', Bool.true_and]

/-- What is not white space comes from the text inside. -/
theorem notMem (h : Pads t padded) {c : CodePoint} (hc : c.isBlank = false) (ht : c ∉ t) :
    c ∉ padded := by
  obtain ⟨before, after, hbefore, hafter, rfl⟩ := h
  have hnot : ∀ u : Text, u.isBlank = true → c ∉ u := fun u hu hmem =>
    Bool.false_ne_true (hc ▸ List.all_eq_true.1 hu c hmem)
  simp only [List.mem_append, not_or]
  exact ⟨⟨hnot before hbefore, ht⟩, hnot after hafter⟩

end Pads

/-- More white space around a text does not change its core. -/
theorem IsCore.pad (h : IsCore t core) (hpads : Pads t padded) : IsCore padded core :=
  ⟨h.pads.trans hpads, h.nonempty, h.starts, h.ends⟩

/-- A text with a core is not blank. -/
theorem IsCore.isBlank_eq (h : IsCore t core) : t.isBlank = false := by
  obtain ⟨c, rest, hcore⟩ := List.exists_cons_of_ne_nil h.nonempty
  have hc : c.isBlank = false := h.starts c (by rw [hcore]; rfl)
  rw [h.pads.isBlank_eq, hcore, isBlank, List.all_cons, hc, Bool.false_and]

/-- **Trimming leaves the core.** -/
theorem IsCore.trim_eq (h : IsCore t core) : trim t = core := by
  obtain ⟨before, after, hbefore, hafter, rfl⟩ := h.pads
  have hdrop : List.dropWhile CodePoint.isBlank (core ++ after) = core ++ after := by
    obtain ⟨c, rest, hcore⟩ := List.exists_cons_of_ne_nil h.nonempty
    have hc : c.isBlank = false := h.starts c (by rw [hcore]; rfl)
    rw [hcore]
    exact List.dropWhile_cons_of_neg (by rw [hc]; exact Bool.false_ne_true)
  rw [trim, stripBoth, List.append_assoc, List.dropWhile_append_of_pos (List.all_eq_true.1 hbefore),
    hdrop, stripRight_append (List.all_eq_true.1 hafter) h.ends]

/-- **What trimming leaves of a text** that is not blank is its core. -/
theorem isCore_trim (h : t.isBlank = false) : IsCore t (trim t) := by
  obtain ⟨after, hafter, hright⟩ :=
    exists_stripRight_append CodePoint.isBlank (t.dropWhile CodePoint.isBlank)
  have hleft := @List.takeWhile_append_dropWhile _ CodePoint.isBlank t
  have hpads : Pads (trim t) t := by
    refine ⟨t.takeWhile CodePoint.isBlank, after, ?_, List.all_eq_true.2 hafter, ?_⟩
    · exact List.all_eq_true.2 fun c hc => List.mem_takeWhile_imp hc
    · rw [List.append_assoc, trim, stripBoth, hright, hleft]
  have hnonempty : trim t ≠ [] := fun hempty => by
    rw [hpads.isBlank_eq, hempty] at h
    cases h
  refine ⟨hpads, hnonempty, fun c hc => ?_, not_of_mem_getLast?_stripRight _ _⟩
  -- the core begins where the text does behind the white space in front
  have hstart : c ∈ (t.dropWhile CodePoint.isBlank).head? := by
    rw [← hright]
    exact List.mem_head?_append_of_mem_head? hc
  exact not_of_mem_head?_dropWhile _ _ c hstart

end Text

end BuildLint

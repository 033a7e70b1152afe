import BuildLint.Proofs.Text.Cutting
import BuildLint.Proofs.Text.Unicode
import BuildLint.Text.Blank

/-!
# Proofs/Text/Entries — the pieces of a text that are not empty

A list of directories, and the lines of an output, are read without regard to pieces that are empty.
What is left are the **entries** of a text, and a separator cuts these in two like the text itself.

* `entries`, `entries_append_separator` — the entries, and the one equation that all else follows
  from.
* `filter_lines` — the lines of a text that are not empty are its entries between line ends, so it
  does not matter that two code points together may end a line.
-/

namespace BuildLint

namespace Text

variable {p : CodePoint → Bool} {s : CodePoint} {t : Text}

/-- **The entries of a text**: its pieces between the code points of a class that are not empty. -/
def entries (p : CodePoint → Bool) (t : Text) : List Text := (cutWhere p t).filter (· != [])

/-- **A separator cuts the entries of a text in two.** -/
theorem entries_append_separator (hs : p s = true) (t rest : Text) :
    entries p (t ++ s :: rest) = entries p t ++ entries p rest := by
  rw [entries, cutWhere_append_separator hs, List.filter_append]
  rfl

/-- A text without separators is its only entry. -/
theorem entries_of_forall (hne : t ≠ []) (h : ∀ c ∈ t, p c = false) : entries p t = [t] := by
  rw [entries, cutWhere_of_forall h, List.filter_cons_of_pos (by simpa using hne), List.filter_nil]

theorem subset_of_mem_entries {entry : Text} (h : entry ∈ entries p t) : entry ⊆ t :=
  subset_of_mem_cutWhere (List.mem_of_mem_filter h)

/-! ## Lines -/

theorem isLineEnd_return : CodePoint.isLineEnd '\r' = true := by decide

theorem isLineEnd_lineFeed : CodePoint.isLineEnd '\n' = true := by decide

/-- **Reading two code points as one line end** takes away empty pieces only, and none in front. -/
theorem exists_cutWhere_mergeCrLf (t : Text) :
    ∃ first others merged, cutWhere CodePoint.isLineEnd t = first :: others ∧
      cutWhere CodePoint.isLineEnd (mergeCrLf t) = first :: merged ∧
      merged.filter (· != []) = others.filter (· != []) := by
  induction t with
  | nil => exact ⟨[], [], [], rfl, rfl, rfl⟩
  | cons c t ih =>
    obtain ⟨first, others, merged, hcut, hmerged, hsame⟩ := ih
    rw [mergeCrLf]
    split
    · -- the carriage return goes, and the line feed behind it ends an empty piece
      obtain ⟨rfl, hfeed⟩ := ‹_ ∧ _›
      obtain ⟨rest, rfl⟩ : ∃ rest, t = CodePoint.ofChar '\n' :: rest := by
        cases t with
        | nil => cases hfeed
        | cons d rest => exact ⟨rest, congrArg (· :: rest) (by simpa [beginsWith] using hfeed)⟩
      have hfirst : first = [] := by
        rw [cutWhere, if_pos isLineEnd_lineFeed] at hcut
        exact (List.cons.inj hcut).1.symm
      subst hfirst
      refine ⟨[], [] :: others, merged, ?_, hmerged, hsame⟩
      rw [cutWhere, if_pos isLineEnd_return, hcut]
    · rw [cutWhere, cutWhere, hcut, hmerged]
      split
      · exact ⟨[], first :: others, first :: merged, rfl, rfl, by simp [List.filter_cons, hsame]⟩
      · exact ⟨c :: first, others, merged, rfl, rfl, hsame⟩

/-- **The lines that are not empty** are the entries between line ends. -/
theorem filter_lines (t : Text) : (lines t).filter (· != []) = entries CodePoint.isLineEnd t := by
  obtain ⟨first, others, merged, hcut, hmerged, hsame⟩ := exists_cutWhere_mergeCrLf t
  have hpieces : (cutWhere CodePoint.isLineEnd (mergeCrLf t)).filter (· != []) =
      entries CodePoint.isLineEnd t := by
    rw [entries, hcut, hmerged, List.filter_cons, List.filter_cons, hsame]
  rw [← hpieces]
  simp only [lines]
  split
  · -- what is dropped is empty
    rename_i hlast
    obtain ⟨init, hinit⟩ := List.getLast?_eq_some_iff.1 hlast
    rw [hinit, List.dropLast_concat, List.filter_append]
    exact (List.append_nil _).symm
  · rfl

end Text

end BuildLint

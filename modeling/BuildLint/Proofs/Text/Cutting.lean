import BuildLint.Text.Basic

/-!
# Proofs/Text/Cutting — cutting a text at a code point, and joining the pieces

A separator cuts a text in two (`cutWhere_append_separator`).  Pieces that do not hold the separator
are what their joined text is cut into (`cutWhere_joinWith`), and every text is such pieces, joined
(`exists_joinWith_eq`).  Replacing the separator joins them with another one (`replace_joinWith`).
-/

namespace BuildLint

namespace Text

variable {p : CodePoint → Bool} {s : CodePoint}

/-- Nothing is cut where nothing separates. -/
theorem cutWhere_of_forall {t : Text} (h : ∀ c ∈ t, p c = false) : cutWhere p t = [t] := by
  induction t with
  | nil => rfl
  | cons c rest ih =>
    rw [cutWhere, if_neg (by simp [h c List.mem_cons_self]),
      ih fun d hd => h d (List.mem_cons_of_mem c hd), consFirst]

theorem cutWhere_ne_nil (p : CodePoint → Bool) (t : Text) : cutWhere p t ≠ [] := by
  cases t with
  | nil => exact List.cons_ne_nil _ _
  | cons c rest =>
    rw [cutWhere]
    split
    · exact List.cons_ne_nil _ _
    · cases cutWhere p rest <;> exact List.cons_ne_nil _ _

/-- **A separator cuts a text in two**, and what is on either side is cut by itself. -/
theorem cutWhere_append_separator (hs : p s = true) (t rest : Text) :
    cutWhere p (t ++ s :: rest) = cutWhere p t ++ cutWhere p rest := by
  induction t with
  | nil =>
    rw [List.nil_append]
    exact if_pos hs
  | cons c t ih =>
    rw [List.cons_append, cutWhere, cutWhere, ih]
    split
    · rfl
    · cases hpieces : cutWhere p t with
      | nil => exact absurd hpieces (cutWhere_ne_nil p t)
      | cons piece pieces => rfl

/-- The first piece ends at the first separator. -/
theorem cutWhere_append_cons {t : Text} (h : ∀ c ∈ t, p c = false) (hs : p s = true)
    (rest : Text) : cutWhere p (t ++ s :: rest) = t :: cutWhere p rest := by
  rw [cutWhere_append_separator hs, cutWhere_of_forall h, List.singleton_append]

/-- **What holds no separator** goes to the last piece of the text before it. -/
theorem exists_cutWhere_append {u : Text} (h : ∀ c ∈ u, p c = false) (t : Text) :
    ∃ before last, cutWhere p t = before ++ [last] ∧ cutWhere p (t ++ u) = before ++ [last ++ u] := by
  induction t with
  | nil => exact ⟨[], [], rfl, cutWhere_of_forall h⟩
  | cons c t ih =>
    obtain ⟨before, last, hcut, hcut'⟩ := ih
    rw [List.cons_append, cutWhere, cutWhere, hcut, hcut']
    split
    · exact ⟨[] :: before, last, rfl, rfl⟩
    · cases before with
      | nil => exact ⟨[], c :: last, rfl, rfl⟩
      | cons piece before => exact ⟨(c :: piece) :: before, last, rfl, rfl⟩

/-- **Cutting undoes joining** pieces that hold no separator. -/
theorem cutWhere_joinWith (hs : p s = true) {pieces : List Text} (hne : pieces ≠ [])
    (h : ∀ piece ∈ pieces, ∀ c ∈ piece, p c = false) :
    cutWhere p (joinWith [s] pieces) = pieces := by
  induction pieces with
  | nil => exact absurd rfl hne
  | cons piece pieces ih =>
    have hpiece := h piece List.mem_cons_self
    cases pieces with
    | nil => exact cutWhere_of_forall hpiece
    | cons next rest =>
      rw [joinWith_cons_cons, List.append_assoc, List.singleton_append,
        cutWhere_append_cons hpiece hs,
        ih (List.cons_ne_nil next rest) fun q hq => h q (List.mem_cons_of_mem piece hq)]

/-- **Every text is joined from pieces** that hold no separator. -/
theorem exists_joinWith_eq (s : CodePoint) (t : Text) :
    ∃ pieces, pieces ≠ [] ∧ (∀ piece ∈ pieces, s ∉ piece) ∧ joinWith [s] pieces = t := by
  induction t with
  | nil => exact ⟨[[]], List.cons_ne_nil _ _, by simp, rfl⟩
  | cons c rest ih =>
    obtain ⟨_ | ⟨piece, pieces⟩, hne, hwhole, rfl⟩ := ih
    · exact absurd rfl hne
    by_cases hc : c = s
    · subst hc
      exact ⟨[] :: piece :: pieces, List.cons_ne_nil _ _,
        List.forall_mem_cons.2 ⟨List.not_mem_nil, hwhole⟩, rfl⟩
    · obtain ⟨hpiece, hpieces⟩ := List.forall_mem_cons.1 hwhole
      refine ⟨(c :: piece) :: pieces, List.cons_ne_nil _ _,
        List.forall_mem_cons.2 ⟨?_, hpieces⟩, ?_⟩
      · exact fun hmem => (List.mem_cons.1 hmem).elim (fun h => hc h.symm) hpiece
      · cases pieces <;> rfl

theorem cutWhere_joinWith_of_not_mem {pieces : List Text} (hne : pieces ≠ [])
    (h : ∀ piece ∈ pieces, s ∉ piece) : cutWhere (· = s) (joinWith [s] pieces) = pieces :=
  cutWhere_joinWith (decide_eq_true rfl) hne fun piece hpiece _ hc =>
    decide_eq_false fun hs => h piece hpiece (hs ▸ hc)

/-- Pieces do not hold the separator. -/
theorem not_mem_of_mem_cutWhere {t piece : Text} (h : piece ∈ cutWhere (· = s) t) : s ∉ piece := by
  obtain ⟨pieces, hne, hwhole, rfl⟩ := exists_joinWith_eq s t
  rw [cutWhere_joinWith_of_not_mem hne hwhole] at h
  exact hwhole piece h

theorem mem_joinWith {c : CodePoint} {pieces : List Text} (h : c ∈ joinWith [s] pieces) :
    c = s ∨ ∃ piece ∈ pieces, c ∈ piece := by
  induction pieces with
  | nil => exact absurd h List.not_mem_nil
  | cons piece pieces ih =>
    cases pieces with
    | nil => exact .inr ⟨piece, List.mem_cons_self, h⟩
    | cons next rest =>
      rw [joinWith_cons_cons] at h
      rcases List.mem_append.1 h with h | h
      · rcases List.mem_append.1 h with h | h
        · exact .inr ⟨piece, List.mem_cons_self, h⟩
        · exact .inl (List.mem_singleton.1 h)
      · refine (ih h).imp_right ?_
        rintro ⟨other, hother, hc⟩
        exact ⟨other, List.mem_cons_of_mem piece hother, hc⟩

/-- Joining goes on behind what is joined, with one more separator. -/
theorem joinWith_append (sep : Text) {pieces others : List Text} (hne : pieces ≠ [])
    (hne' : others ≠ []) :
    joinWith sep (pieces ++ others) = joinWith sep pieces ++ sep ++ joinWith sep others := by
  induction pieces with
  | nil => exact absurd rfl hne
  | cons piece pieces ih =>
    cases pieces with
    | nil =>
      obtain ⟨next, rest, rfl⟩ := List.exists_cons_of_ne_nil hne'
      rfl
    | cons next rest =>
      rw [List.cons_append, List.cons_append, joinWith_cons_cons, joinWith_cons_cons,
        ← List.cons_append, ih (List.cons_ne_nil next rest)]
      simp only [List.append_assoc]

theorem replace_replace (old : CodePoint) {new : CodePoint} (h : new ≠ old) (t : Text) :
    (t.replace old new).replace old new = t.replace old new := by
  rw [replace, replace, List.map_map]
  refine List.map_congr_left fun c _ => ?_
  by_cases hc : c = old
  · simp only [Function.comp_apply, if_pos hc, if_neg h]
  · simp only [Function.comp_apply, if_neg hc]

theorem replace_of_not_mem {old : CodePoint} (new : CodePoint) {t : Text} (h : old ∉ t) :
    t.replace old new = t := by
  have hsame : ∀ c ∈ t, (if c = old then new else c) = id c := by
    intro c hc
    exact if_neg fun heq : c = old => h (heq ▸ hc)
  rw [replace, List.map_congr_left hsame, List.map_id]

theorem replace_append (old new : CodePoint) (t u : Text) :
    (t ++ u).replace old new = t.replace old new ++ u.replace old new := List.map_append

/-- **Replacing the separator** joins the pieces with another one. -/
theorem replace_joinWith (new : CodePoint) {pieces : List Text} (h : ∀ piece ∈ pieces, s ∉ piece) :
    (joinWith [s] pieces).replace s new = joinWith [new] pieces := by
  induction pieces with
  | nil => rfl
  | cons piece pieces ih =>
    obtain ⟨hpiece, hpieces⟩ := List.forall_mem_cons.1 h
    cases pieces with
    | nil => exact replace_of_not_mem new hpiece
    | cons next rest =>
      have hsep : replace s new [s] = [new] := by rw [replace, List.map_singleton, if_pos rfl]
      rw [joinWith_cons_cons, joinWith_cons_cons, replace_append, replace_append,
        replace_of_not_mem new hpiece, hsep, ih hpieces]

/-- A separator of one code point cuts where that code point stands. -/
theorem splitOn_singleton (t : Text) : splitOn t [s] = cutWhere (· = s) t := by
  rw [splitOn]
  induction t with
  | nil => rfl
  | cons c rest ih =>
    have hprefix : List.isPrefixOf [s] (c :: rest) = decide (c = s) := by
      simp [List.isPrefixOf, eq_comm, BEq.beq]
    rw [splitFrom, hprefix, cutWhere, List.length_singleton, Nat.sub_self, ih]

/-- **Splitting undoes joining** pieces that do not hold the separator. -/
theorem splitOn_joinWith {pieces : List Text} (hne : pieces ≠ [])
    (h : ∀ piece ∈ pieces, s ∉ piece) : splitOn (joinWith [s] pieces) [s] = pieces := by
  rw [splitOn_singleton]
  exact cutWhere_joinWith_of_not_mem hne h

/-- What stands before the first occurrence of a code point, and after it. -/
theorem cutAt?_append {c : CodePoint} {t : Text} (h : c ∉ t) (rest : Text) :
    (t ++ c :: rest).cutAt? c = some (t, rest) := by
  induction t with
  | nil => exact if_pos rfl
  | cons d t ih =>
    obtain ⟨hd, ht⟩ := not_or.1 (mt List.mem_cons.2 h)
    rw [List.cons_append, cutAt?, if_neg (Ne.symm hd), ih ht]
    rfl

theorem cutAt?_eq_none {c : CodePoint} {t : Text} (h : c ∉ t) : t.cutAt? c = none := by
  induction t with
  | nil => rfl
  | cons d t ih =>
    obtain ⟨hd, ht⟩ := not_or.1 (mt List.mem_cons.2 h)
    rw [cutAt?, if_neg (Ne.symm hd), ih ht]
    rfl

end Text

end BuildLint

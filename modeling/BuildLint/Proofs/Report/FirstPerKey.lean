import Mathlib.Data.List.Induction
import Mathlib.Data.List.Nodup

/-!
# Proofs/Report/FirstPerKey — the first entry of every key

An entry of a list stays if no entry before it has its key.  The definition looks at positions
alone; `firstPerKey_concat` is the equation that a loop over the list is compared with.

* `mem_map_firstPerKey` — no key is lost.
* `nodup_map_firstPerKey` — no key stays twice.
* `firstPerKey_sublist` — the order stays.
* `firstPerKey_append`, `firstPerKey_flatten` — selecting in parts.
-/

namespace BuildLint

variable {α κ : Type*} [DecidableEq κ]

/-- **The first entry of every key**, in order. -/
def firstPerKey (key : α → κ) (l : List α) : List α :=
  (l.zipIdx.filter fun p => key p.1 ∉ (l.take p.2).map key).map Prod.fst

@[simp] theorem firstPerKey_nil (key : α → κ) : firstPerKey key [] = [] := rfl

/-- One more entry stays exactly if its key is new. -/
theorem firstPerKey_concat (key : α → κ) (l : List α) (a : α) :
    firstPerKey key (l ++ [a]) =
      firstPerKey key l ++ if key a ∈ l.map key then [] else [a] := by
  have hinit : (l.zipIdx.filter fun p => key p.1 ∉ ((l ++ [a]).take p.2).map key) =
      l.zipIdx.filter fun p => key p.1 ∉ (l.take p.2).map key := by
    refine List.filter_congr fun p hp => ?_
    have hlt : p.2 < l.length + 0 := List.snd_lt_of_mem_zipIdx hp
    rw [List.take_append_of_le_length (by omega)]
  rw [firstPerKey, List.zipIdx_append, List.filter_append, List.map_append, hinit, firstPerKey]
  by_cases h : key a ∈ l.map key <;> simp [h]

/-- **No key is lost.** -/
theorem mem_map_firstPerKey (key : α → κ) (l : List α) (k : κ) :
    k ∈ (firstPerKey key l).map key ↔ k ∈ l.map key := by
  induction l using List.reverseRecOn with
  | nil => rfl
  | append_singleton l a ih =>
    rw [firstPerKey_concat]
    by_cases h : key a ∈ l.map key
    · rw [if_pos h, List.append_nil, ih, List.map_append, List.mem_append]
      refine ⟨Or.inl, fun hk => hk.elim id fun hk => ?_⟩
      obtain rfl := List.mem_singleton.1 hk
      exact h
    · rw [if_neg h, List.map_append, List.mem_append, ih, List.map_append, List.mem_append]

/-- **No key stays twice.** -/
theorem nodup_map_firstPerKey (key : α → κ) (l : List α) :
    ((firstPerKey key l).map key).Nodup := by
  induction l using List.reverseRecOn with
  | nil => exact List.nodup_nil
  | append_singleton l a ih =>
    rw [firstPerKey_concat]
    by_cases h : key a ∈ l.map key
    · rwa [if_pos h, List.append_nil]
    · rw [if_neg h, List.map_append]
      refine List.nodup_append.2 ⟨ih, List.nodup_singleton _, fun k hk k' hk' heq => h ?_⟩
      obtain rfl := List.mem_singleton.1 hk'
      exact (mem_map_firstPerKey key l _).1 (heq ▸ hk)

/-- **The order stays.** -/
theorem firstPerKey_sublist (key : α → κ) (l : List α) : (firstPerKey key l).Sublist l := by
  have h := (List.filter_sublist (l := l.zipIdx)
    (p := fun p => key p.1 ∉ (l.take p.2).map key)).map Prod.fst
  rwa [List.zipIdx_map_fst] at h

/-- What is selected of two lists: of the second, the entries whose keys the first does not have. -/
theorem firstPerKey_append (key : α → κ) (l m : List α) :
    firstPerKey key (l ++ m) =
      firstPerKey key l ++ (firstPerKey key m).filter fun a => key a ∉ l.map key := by
  induction m using List.reverseRecOn with
  | nil => rw [List.append_nil, firstPerKey_nil, List.filter_nil, List.append_nil]
  | append_singleton m a ih =>
    rw [← List.append_assoc, firstPerKey_concat, ih, firstPerKey_concat, List.append_assoc,
      List.filter_append]
    by_cases hm : key a ∈ m.map key
    · have hlm : key a ∈ (l ++ m).map key := by
        rw [List.map_append]
        exact List.mem_append_right _ hm
      rw [if_pos hm, if_pos hlm, List.filter_nil]
    · rw [if_neg hm, List.filter_singleton, List.map_append]
      by_cases hl : key a ∈ l.map key <;> simp [hl, hm]

/-- Nothing is dropped where no key stands twice. -/
theorem firstPerKey_eq_self {key : α → κ} {l : List α} (h : (l.map key).Nodup) :
    firstPerKey key l = l := by
  induction l using List.reverseRecOn with
  | nil => rfl
  | append_singleton l a ih =>
    rw [List.map_append, List.map_singleton, List.nodup_append] at h
    obtain ⟨hl, -, hapart⟩ := h
    have hnew : key a ∉ l.map key := fun hmem => hapart _ hmem _ (List.mem_singleton_self _) rfl
    rw [firstPerKey_concat, ih hl, if_neg hnew]

/-- **Selecting from selections** is selecting from the whole. -/
theorem firstPerKey_flatten (key : α → κ) (parts : List (List α)) :
    firstPerKey key (parts.map (firstPerKey key)).flatten = firstPerKey key parts.flatten := by
  induction parts with
  | nil => rfl
  | cons l parts ih =>
    rw [List.map_cons, List.flatten_cons, List.flatten_cons, firstPerKey_append, firstPerKey_append,
      ih, firstPerKey_eq_self (nodup_map_firstPerKey key l)]
    simp only [mem_map_firstPerKey]

end BuildLint

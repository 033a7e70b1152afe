import BuildLint.Keyed

/-!
# Proofs/Keyed — keys, pairs and layers

What stands under a key is one of the pairs, and where no key comes twice every pair counts
(`get?_eq_some`).  Setting a value keeps the keys apart from each other (`nodup_keys_set`), and a
layer counts before what it is laid over (`get?_overlay`).
-/

namespace BuildLint

namespace Keyed

variable {κ ν : Type} [DecidableEq κ] {key name : κ} {value v : ν} {all base top : Keyed κ ν}

/-! ## One key -/

theorem mem_of_get? (h : get? all key = some v) : (key, v) ∈ all := by
  induction all with
  | nil => cases h
  | cons m rest ih =>
    obtain ⟨k, w⟩ := m
    rw [get?] at h
    split at h
    · obtain rfl := Option.some.inj h
      exact ‹k = key› ▸ List.mem_cons_self
    · exact List.mem_cons_of_mem _ (ih h)

theorem get?_eq_none (h : key ∉ all.map Prod.fst) : get? all key = none := by
  cases hv : get? all key with
  | none => rfl
  | some v => exact absurd (List.mem_map_of_mem (mem_of_get? hv)) h

theorem isSome_get?_iff : (get? all key).isSome = true ↔ ∃ m ∈ all, m.1 = key := by
  induction all with
  | nil => simp [get?]
  | cons m rest ih =>
    obtain ⟨k, v⟩ := m
    by_cases hk : k = key <;> simp [get?, hk, ih]

/-- **Where no key comes twice**, the pairs are what the keys give. -/
theorem get?_eq_some (hn : (all.map Prod.fst).Nodup) :
    get? all key = some v ↔ (key, v) ∈ all := by
  refine ⟨mem_of_get?, fun h => ?_⟩
  induction all with
  | nil => exact absurd h List.not_mem_nil
  | cons m rest ih =>
    obtain ⟨k, w⟩ := m
    obtain ⟨hk, hrest⟩ := List.nodup_cons.1 hn
    rw [get?]
    rcases List.mem_cons.1 h with heq | h
    · obtain ⟨rfl, rfl⟩ := Prod.mk.inj heq
      exact if_pos rfl
    · rw [if_neg fun (hkey : k = key) => hk (hkey ▸ List.mem_map.2 ⟨_, h, rfl⟩), ih hrest h]

theorem get?_filter (hn : (all.map Prod.fst).Nodup) (p : ν → Bool) :
    get? (all.filter fun m => p m.2) key = (get? all key).filter p := by
  induction all with
  | nil => rfl
  | cons m rest ih =>
    obtain ⟨k, v⟩ := m
    obtain ⟨hk, hrest⟩ := List.nodup_cons.1 hn
    have hnone (hkey : k = key) : get? rest key = none := get?_eq_none (hkey ▸ hk)
    cases hp : p v <;> by_cases hkey : k = key <;> simp_all [get?, Option.filter]

/-! ## Setting a value -/

theorem keys_set (key : κ) (value : ν) (all : Keyed κ ν) :
    (set all key value).map Prod.fst =
      if key ∈ all.map Prod.fst then all.map Prod.fst else all.map Prod.fst ++ [key] := by
  induction all with
  | nil => rfl
  | cons m rest ih =>
    obtain ⟨k, w⟩ := m
    by_cases hk : k = key
    · rw [set, if_pos hk, if_pos (by simp [hk])]
      rfl
    · rw [set, if_neg hk, List.map_cons, ih, List.map_cons]
      by_cases hmem : key ∈ rest.map Prod.fst
      · rw [if_pos hmem, if_pos (List.mem_cons_of_mem k hmem)]
      · rw [if_neg hmem, if_neg fun h => (List.mem_cons.1 h).elim (fun h => hk h.symm) hmem]
        rfl

/-- Keys stay apart from each other. -/
theorem nodup_keys_set (h : (all.map Prod.fst).Nodup) (key : κ) (value : ν) :
    ((set all key value).map Prod.fst).Nodup := by
  rw [keys_set]
  split
  · exact h
  · rename_i hnew
    refine List.nodup_append.2 ⟨h, List.pairwise_singleton _ key, ?_⟩
    rintro k hk l hl rfl
    exact hnew (List.mem_singleton.1 hl ▸ hk)

theorem mem_set {m : κ × ν} (h : m ∈ set all key value) : m = (key, value) ∨ m ∈ all := by
  induction all with
  | nil => exact .inl (List.mem_singleton.1 h)
  | cons n rest ih =>
    obtain ⟨k, w⟩ := n
    rw [set] at h
    split at h
    · rcases List.mem_cons.1 h with rfl | h
      · exact .inl (by rw [‹k = key›])
      · exact .inr (List.mem_cons_of_mem _ h)
    · rcases List.mem_cons.1 h with rfl | h
      · exact .inr List.mem_cons_self
      · exact (ih h).imp_right (List.mem_cons_of_mem _)

/-- A new key comes last. -/
theorem set_of_not_mem (h : key ∉ all.map Prod.fst) (value : ν) :
    set all key value = all ++ [(key, value)] := by
  induction all with
  | nil => rfl
  | cons m rest ih =>
    obtain ⟨k, w⟩ := m
    have hk : k ≠ key := fun hk => h (hk ▸ List.mem_cons_self)
    rw [set, if_neg hk, ih fun hrest => h (List.mem_cons_of_mem k hrest)]
    rfl

theorem filter_set (p : κ → Bool) (key : κ) (value : ν) (all : Keyed κ ν) :
    (set all key value).filter (fun m => p m.1) =
      if p key then set (all.filter fun m => p m.1) key value else all.filter fun m => p m.1 := by
  induction all with
  | nil => cases hp : p key <;> simp [set, hp]
  | cons m rest ih =>
    obtain ⟨k, w⟩ := m
    by_cases hk : k = key
    · subst hk
      cases hp : p k <;> simp [set, hp]
    · cases hp : p k <;> cases hkey : p key <;> simp_all [set]

/-! ## Layers -/

/-- **The frame**: what a layer does not name stays. -/
theorem get?_overlay_of_not_mem (h : name ∉ top.map Prod.fst) (base : Keyed κ ν) :
    get? (base.overlay top) name = get? base name := by
  induction top generalizing base with
  | nil => rfl
  | cons m top ih =>
    obtain ⟨hm, htop⟩ := not_or.1 (mt List.mem_cons.2 h)
    exact (ih htop _).trans (get?_set_of_ne hm _ _)

/-- What a layer names once has the value it has there. -/
theorem get?_overlay_of_mem (hn : (top.map Prod.fst).Nodup) (h : (name, value) ∈ top)
    (base : Keyed κ ν) : get? (base.overlay top) name = some value := by
  induction top generalizing base with
  | nil => exact absurd h List.not_mem_nil
  | cons m top ih =>
    obtain ⟨hm, htop⟩ := List.nodup_cons.1 hn
    rcases List.mem_cons.1 h with rfl | h
    · exact (get?_overlay_of_not_mem hm _).trans (get?_set_self _ _ _)
    · exact ih htop h _

/-- **A layer counts before** what it is laid over. -/
theorem get?_overlay (hn : (top.map Prod.fst).Nodup) :
    get? (base.overlay top) name = (get? top name).or (get? base name) := by
  cases h : get? top name with
  | some v => exact get?_overlay_of_mem hn (mem_of_get? h) base
  | none =>
    refine get?_overlay_of_not_mem (fun hmem => ?_) base
    obtain ⟨m, hm, rfl⟩ := List.mem_map.1 hmem
    exact Option.some_ne_none m.2 (((get?_eq_some hn).2 hm).symm.trans h)

theorem nodup_keys_overlay (hn : (base.map Prod.fst).Nodup) :
    ((base.overlay top).map Prod.fst).Nodup := by
  induction top generalizing base with
  | nil => exact hn
  | cons m top ih => exact ih (nodup_keys_set hn m.1 m.2)

/-- **Leaving keys out of laid over values** leaves them out of the layer. -/
theorem filter_overlay (p : κ → Bool) (base top : Keyed κ ν) :
    (base.overlay top).filter (fun m => p m.1) =
      overlay (base.filter fun m => p m.1) (top.filter fun m => p m.1) := by
  induction top generalizing base with
  | nil => rfl
  | cons m top ih =>
    rw [overlay, List.foldl_cons, ← overlay, ih, filter_set, List.filter_cons]
    cases p m.1 <;> rfl

end Keyed

end BuildLint

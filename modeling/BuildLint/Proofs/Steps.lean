import Mathlib.Data.List.Forall2

/-!
# Proofs/Steps — steps that can fail, one after the other

A sequence of steps succeeds if every step does; what it gives is what the steps give.  Otherwise it
fails as the first step does that fails, and what comes after that step does not matter.

* `First` — something stops at the first element that is not passed.
* `mapM_eq_ok`, `mapM_eq_error`, `foldlM_eq_error` — when a sequence succeeds, and how it fails.
-/

namespace BuildLint

namespace Steps

variable {ε α β : Type}

/-- A step and then another succeed if both do. -/
theorem bind_eq_ok {x : Except ε α} {f : α → Except ε β} {b : β} :
    x >>= f = .ok b ↔ ∃ a, x = .ok a ∧ f a = .ok b := by
  cases x with
  | error e => exact ⟨fun h => (nomatch h), fun ⟨_, h, _⟩ => (nomatch h)⟩
  | ok a =>
    refine ⟨fun h => ⟨a, rfl, h⟩, fun ⟨c, hc, h⟩ => ?_⟩
    obtain rfl := Except.ok.inj hc
    exact h

/-- A step and then another fail if the first does, or the second after it. -/
theorem bind_eq_error {x : Except ε α} {f : α → Except ε β} {e : ε} :
    x >>= f = .error e ↔ x = .error e ∨ ∃ a, x = .ok a ∧ f a = .error e := by
  cases x with
  | error e' =>
    refine ⟨fun h => .inl (congrArg Except.error (Except.error.inj h)), ?_⟩
    rintro (h | ⟨a, h, -⟩)
    · exact congrArg Except.error (Except.error.inj h)
    · cases h
  | ok a =>
    constructor
    · exact fun h => .inr ⟨a, rfl, h⟩
    · rintro (h | ⟨b, hb, h⟩)
      · cases h
      · obtain rfl := Except.ok.inj hb
        exact h

/-- After the same step it is enough to go on alike with what that step gives. -/
theorem bind_congr {x : Except ε α} {f g : α → Except ε β} (h : ∀ a, x = .ok a → f a = g a) :
    x >>= f = x >>= g := by
  cases x with
  | error e => rfl
  | ok a => exact h a rfl

/-- Giving faults another form lets no step succeed that did not. -/
theorem ok_of_mapError {δ : Type} {r : Except ε α} {form : ε → δ} {a : α} :
    r.mapError form = .ok a ↔ r = .ok a := by
  cases r with
  | error e => exact ⟨fun h => (nomatch h), fun h => (nomatch h)⟩
  | ok b => exact ⟨fun h => congrArg Except.ok (Except.ok.inj h), fun h => h ▸ rfl⟩

theorem mapError_eq_error {δ : Type} {r : Except ε α} {form : ε → δ} {e : δ} :
    r.mapError form = .error e ↔ ∃ e', r = .error e' ∧ form e' = e := by
  cases r with
  | error e' =>
    refine ⟨fun h => ⟨e', rfl, Except.error.inj h⟩, ?_⟩
    rintro ⟨_, h, rfl⟩
    obtain rfl := Except.error.inj h
    rfl
  | ok a => exact ⟨fun h => (nomatch h), fun ⟨_, h, _⟩ => (nomatch h)⟩

theorem map_eq_ok {x : Except ε α} {f : α → β} {b : β} :
    x.map f = .ok b ↔ ∃ a, x = .ok a ∧ f a = b := by
  cases x with
  | error e => exact ⟨fun h => (nomatch h), fun ⟨_, h, _⟩ => (nomatch h)⟩
  | ok a =>
    refine ⟨fun h => ⟨a, rfl, Except.ok.inj h⟩, ?_⟩
    rintro ⟨c, hc, rfl⟩
    obtain rfl := Except.ok.inj hc
    rfl

/-- Doing something with what a step gives lets it fail as it did. -/
theorem map_eq_error {x : Except ε α} {f : α → β} {e : ε} :
    x.map f = .error e ↔ x = .error e := by
  cases x with
  | error e' =>
    exact ⟨fun h => congrArg Except.error (Except.error.inj h), fun h => by rw [h]; rfl⟩
  | ok a => exact ⟨fun h => (nomatch h), fun h => (nomatch h)⟩

theorem toOption_eq_some {r : Except ε α} {a : α} : r.toOption = some a ↔ r = .ok a := by
  cases r with
  | error e => exact ⟨fun h => (nomatch h), fun h => (nomatch h)⟩
  | ok b => exact ⟨fun h => congrArg Except.ok (Option.some.inj h), fun h => h ▸ rfl⟩

/-- **The same step on every element** succeeds if it does on each. -/
theorem mapM_eq_ok {f : α → Except ε β} {xs : List α} {ys : List β} :
    xs.mapM f = .ok ys ↔ List.Forall₂ (fun x y => f x = .ok y) xs ys := by
  induction xs generalizing ys with
  | nil =>
    rw [List.mapM_nil, List.forall₂_nil_left_iff]
    exact ⟨fun h => (Except.ok.inj h).symm, fun h => congrArg Except.ok h.symm⟩
  | cons x xs ih =>
    rw [List.mapM_cons, bind_eq_ok, List.forall₂_cons_left_iff]
    refine exists_congr fun y => ?_
    rw [bind_eq_ok]
    constructor
    · rintro ⟨hy, zs, hzs, h⟩
      exact ⟨zs, hy, ih.1 hzs, (Except.ok.inj h).symm⟩
    · rintro ⟨zs, hy, hzs, rfl⟩
      exact ⟨hy, zs, ih.2 hzs, rfl⟩

/-- Steps that do the same on every element do the same in sequence. -/
theorem mapM_congr {f g : α → Except ε β} {xs : List α} (h : ∀ x ∈ xs, f x = g x) :
    xs.mapM f = xs.mapM g := by
  induction xs with
  | nil => rfl
  | cons x xs ih =>
    rw [List.mapM_cons, List.mapM_cons, h x List.mem_cons_self,
      ih fun y hy => h y (List.mem_cons_of_mem x hy)]

/-- Steps that do the same on entries side by side do the same in sequence. -/
theorem mapM_eq_of_forall₂ {γ : Type} {R : α → γ → Prop} {f : α → Except ε β} {g : γ → Except ε β}
    {xs : List α} {zs : List γ} (h : List.Forall₂ R xs zs) (hf : ∀ x z, R x z → f x = g z) :
    xs.mapM f = zs.mapM g := by
  induction h with
  | nil => rfl
  | cons hxz _ ih => rw [List.mapM_cons, List.mapM_cons, hf _ _ hxz, ih]

/-- If a step succeeds on every element, it succeeds on each. -/
theorem exists_of_mapM {f : α → Except ε β} {xs : List α} {ys : List β}
    (h : xs.mapM f = .ok ys) {x : α} (hx : x ∈ xs) : ∃ y, f x = .ok y := by
  have hall := mapM_eq_ok.1 h
  clear h
  induction hall with
  | nil => exact absurd hx List.not_mem_nil
  | cons hy _ ih =>
    rcases List.mem_cons.1 hx with rfl | hx
    · exact ⟨_, hy⟩
    · exact ih hx

/-- What the same step gives, it gives on some element. -/
theorem exists_of_mem_mapM {f : α → Except ε β} {xs : List α} {ys : List β}
    (h : xs.mapM f = .ok ys) {y : β} (hy : y ∈ ys) : ∃ x ∈ xs, f x = .ok y := by
  have hall := mapM_eq_ok.1 h
  clear h
  induction hall with
  | nil => exact absurd hy List.not_mem_nil
  | cons hx _ ih =>
    rcases List.mem_cons.1 hy with rfl | hy
    · exact ⟨_, List.mem_cons_self, hx⟩
    · obtain ⟨x, hmem, h⟩ := ih hy
      exact ⟨x, List.mem_cons_of_mem _ hmem, h⟩

/-- What the same step gives has whatever it has on each element. -/
theorem forall_mem_of_mapM {f : α → Except ε β} {xs : List α} {ys : List β} {P : β → Prop}
    (h : xs.mapM f = .ok ys) (hf : ∀ x ∈ xs, ∀ y, f x = .ok y → P y) : ∀ y ∈ ys, P y := by
  intro y hy
  obtain ⟨x, hx, hy⟩ := exists_of_mem_mapM h hy
  exact hf x hx y hy

/-- The same step succeeds if it gives the listed values one by one. -/
theorem mapM_eq_ok_of_map {f : α → Except ε β} {xs : List α} {ys : List β}
    (h : ys.map .ok = xs.map f) : xs.mapM f = .ok ys := by
  have heq : List.Forall₂ Eq (xs.map f) (ys.map .ok) := by rw [List.forall₂_eq_eq_eq, h]
  exact mapM_eq_ok.2 (List.forall₂_map_left_iff.1 (List.forall₂_map_right_iff.1 heq))

/-- The same step succeeds if it gives, on every element, what is wanted for the entry beside it. -/
theorem mapM_eq_ok_of_forall₂ {γ : Type} {R : α → γ → Prop} {f : α → Except ε β} {g : γ → β}
    {xs : List α} {zs : List γ} (h : List.Forall₂ R xs zs)
    (hf : ∀ x, ∀ z ∈ zs, R x z → f x = .ok (g z)) : xs.mapM f = .ok (zs.map g) := by
  rw [mapM_eq_ok, List.forall₂_map_right_iff]
  induction h with
  | nil => exact .nil
  | cons hxz _ ih =>
    exact .cons (hf _ _ List.mem_cons_self hxz)
      (ih fun x z hz => hf x z (List.mem_cons_of_mem _ hz))

/-- A step that succeeds on each element gives what it gives where it succeeds. -/
theorem mapM_eq_ok_filterMap {f : α → Except ε β} {xs : List α} (h : ∀ x ∈ xs, ∃ y, f x = .ok y) :
    xs.mapM f = .ok (xs.filterMap fun x => (f x).toOption) := by
  induction xs with
  | nil => rfl
  | cons x xs ih =>
    obtain ⟨y, hy⟩ := h x List.mem_cons_self
    have hrest := ih fun z hz => h z (List.mem_cons_of_mem x hz)
    rw [List.mapM_cons, List.filterMap_cons, hrest, hy]
    rfl

/-- Entries that add nothing may be left out. -/
theorem flatten_mapM_filter (skip : α → Bool) (f : α → Except ε (List β)) (xs : List α) :
    (xs.mapM fun x => if skip x then .ok [] else f x).map List.flatten =
      ((xs.filter fun x => !skip x).mapM f).map List.flatten := by
  induction xs with
  | nil => rfl
  | cons x xs ih =>
    rw [List.mapM_cons]
    cases hskip : skip x with
    | true =>
      rw [List.filter_cons_of_neg (by rw [hskip]; exact Bool.false_ne_true), ← ih]
      cases xs.mapM fun x => if skip x then .ok [] else f x <;> rfl
    | false =>
      rw [List.filter_cons_of_pos (by rw [hskip]; rfl), List.mapM_cons, if_neg Bool.false_ne_true]
      cases f x with
      | error e => rfl
      | ok ys =>
        revert ih
        cases xs.mapM fun x => if skip x then .ok [] else f x <;>
          cases (xs.filter fun x => !skip x).mapM f <;> intro ih
        · exact congrArg Except.error (Except.error.inj ih)
        · cases ih
        · cases ih
        · exact congrArg (fun zs => Except.ok (ys ++ zs)) (Except.ok.inj ih)

/-- If the same step fails, it fails so on some element. -/
theorem exists_of_mapM_eq_error {f : α → Except ε β} {xs : List α} {e : ε}
    (h : xs.mapM f = .error e) : ∃ x ∈ xs, f x = .error e := by
  induction xs with
  | nil => cases h
  | cons x xs ih =>
    rw [List.mapM_cons] at h
    cases hx : f x with
    | error e' =>
      rw [hx] at h
      cases h
      exact ⟨x, List.mem_cons_self, hx⟩
    | ok y =>
      cases hxs : xs.mapM f with
      | error e' =>
        rw [hx, hxs] at h
        cases h
        obtain ⟨z, hz, hfz⟩ := ih hxs
        exact ⟨z, List.mem_cons_of_mem x hz, hfz⟩
      | ok ys =>
        rw [hx, hxs] at h
        cases h

/-! ## The first element at which a sequence stops -/

/-- **Something stops at the first element that is not passed.** -/
inductive First (passes stops : α → Prop) : List α → Prop
  | here {x : α} {xs : List α} (h : stops x) : First passes stops (x :: xs)
  | later {x : α} {xs : List α} (hx : passes x) (h : First passes stops xs) :
      First passes stops (x :: xs)

section

variable {passes stops : α → Prop}

theorem not_first_nil : ¬First passes stops [] := fun h => nomatch h

theorem first_cons {x : α} {xs : List α} :
    First passes stops (x :: xs) ↔ stops x ∨ passes x ∧ First passes stops xs := by
  constructor
  · intro h
    cases h with
    | here h => exact .inl h
    | later hx h => exact .inr ⟨hx, h⟩
  · rintro (h | ⟨hx, h⟩)
    · exact .here h
    · exact .later hx h

/-- The stop is at some element. -/
theorem First.exists {xs : List α} (h : First passes stops xs) : ∃ x ∈ xs, stops x := by
  induction h with
  | here h => exact ⟨_, List.mem_cons_self, h⟩
  | later _ _ ih =>
    obtain ⟨x, hx, hstops⟩ := ih
    exact ⟨x, List.mem_cons_of_mem _ hx, hstops⟩

/-- If an element is not passed then something stops, in one way or another. -/
theorem exists_first {ι : Type} {stops : ι → α → Prop} {xs : List α} {x : α}
    (h : ∀ y, passes y ∨ ∃ i, stops i y) (hx : x ∈ xs) (hnot : ¬passes x) :
    ∃ i, First passes (stops i) xs := by
  induction xs with
  | nil => exact absurd hx List.not_mem_nil
  | cons y ys ih =>
    rcases h y with hpasses | ⟨i, hstops⟩
    · rcases List.mem_cons.1 hx with rfl | hmem
      · exact absurd hpasses hnot
      · obtain ⟨i, hfirst⟩ := ih hmem
        exact ⟨i, .later hpasses hfirst⟩
    · exact ⟨i, .here hstops⟩

/-- What stands before the first stop, and behind it. -/
theorem first_iff_exists_append {xs : List α} : First passes stops xs ↔ ∃ before x after,
    xs = before ++ x :: after ∧ (∀ b ∈ before, passes b) ∧ stops x := by
  constructor
  · intro h
    induction h with
    | @here x xs h => exact ⟨[], x, xs, rfl, fun _ h => absurd h List.not_mem_nil, h⟩
    | @later y ys hy _ ih =>
      obtain ⟨before, x, after, rfl, hbefore, hx⟩ := ih
      exact ⟨y :: before, x, after, rfl, List.forall_mem_cons.2 ⟨hy, hbefore⟩, hx⟩
  · rintro ⟨before, x, after, rfl, hbefore, hx⟩
    induction before with
    | nil => exact .here hx
    | cons y ys ih =>
      obtain ⟨hy, hys⟩ := List.forall_mem_cons.1 hbefore
      exact .later hy (ih hys)

theorem First.mono {passes' stops' : α → Prop} {xs : List α} (h : First passes stops xs)
    (hpasses : ∀ x, passes x → passes' x) (hstops : ∀ x, stops x → stops' x) :
    First passes' stops' xs := by
  induction h with
  | here h => exact .here (hstops _ h)
  | later hx _ ih => exact .later (hpasses _ hx) ih

end

/-- **The same step on every element** fails as it does on the first on which it fails. -/
theorem mapM_eq_error {f : α → Except ε β} {xs : List α} {e : ε} :
    xs.mapM f = .error e ↔ First (fun x => ∃ y, f x = .ok y) (fun x => f x = .error e) xs := by
  induction xs with
  | nil => exact ⟨fun h => (nomatch h), fun h => absurd h not_first_nil⟩
  | cons x xs ih =>
    rw [List.mapM_cons, bind_eq_error, first_cons]
    refine or_congr_right ?_
    constructor
    · rintro ⟨y, hy, h⟩
      rcases bind_eq_error.1 h with h | ⟨ys, -, h⟩
      · exact ⟨⟨y, hy⟩, ih.1 h⟩
      · cases h
    · rintro ⟨⟨y, hy⟩, h⟩
      exact ⟨y, hy, bind_eq_error.2 (.inl (ih.2 h))⟩

/-- **Behind an element on which a step fails** nothing is done. -/
theorem mapM_congr_of_error {f g : α → Except ε β} {before after : List α} {x : α} {e : ε}
    (hx : f x = .error e) (h : ∀ y ∈ before ++ [x], f y = g y) :
    (before ++ x :: after).mapM f = (before ++ x :: after).mapM g := by
  obtain ⟨hbefore, hsame⟩ := List.forall_mem_append.1 h
  have hx' : g x = .error e := (hsame x List.mem_cons_self).symm.trans hx
  rw [List.mapM_append, List.mapM_append, mapM_congr hbefore, List.mapM_cons, List.mapM_cons, hx,
    hx']
  rfl

/-- **Taking elements in one after the other** fails as the first does that is not taken in. -/
theorem foldlM_eq_error {f : β → α → Except ε β} {b : β} {xs : List α} {e : ε} :
    xs.foldlM f b = .error e ↔ ∃ before x after c, xs = before ++ x :: after ∧
      before.foldlM f b = .ok c ∧ f c x = .error e := by
  induction xs generalizing b with
  | nil =>
    refine ⟨fun h => (nomatch h), ?_⟩
    rintro ⟨before, x, after, c, h, -⟩
    simp at h
  | cons x xs ih =>
    rw [List.foldlM_cons, bind_eq_error]
    constructor
    · rintro (h | ⟨c, hc, h⟩)
      · exact ⟨[], x, xs, b, rfl, rfl, h⟩
      · obtain ⟨before, y, after, d, rfl, hbefore, hy⟩ := ih.1 h
        refine ⟨x :: before, y, after, d, rfl, ?_, hy⟩
        rw [List.foldlM_cons]
        exact bind_eq_ok.2 ⟨c, hc, hbefore⟩
    · rintro ⟨before, y, after, d, hxs, hbefore, hy⟩
      cases before with
      | nil =>
        obtain ⟨rfl, rfl⟩ := List.cons.inj hxs
        obtain rfl := Except.ok.inj hbefore
        exact .inl hy
      | cons z before =>
        obtain ⟨rfl, rfl⟩ := List.cons.inj hxs
        rw [List.foldlM_cons] at hbefore
        obtain ⟨c, hc, hbefore⟩ := bind_eq_ok.1 hbefore
        exact .inr ⟨c, hc, ih.2 ⟨before, y, after, d, rfl, hbefore, hy⟩⟩

end Steps

end BuildLint

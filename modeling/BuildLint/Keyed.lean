/-!
# Keyed — values under keys

Environment variables, the members of a JSON object, the entries of a disk and the toolchains of a
build are lists of keys with values.  The first pair with a key counts; a value that takes the place
of another stands where that one stood, and a new key comes last.

* `get?`, `set`, `erase` — the value under a key, giving it another, and taking it away;
  `get?_set_self`, `get?_set_of_ne`, `get?_erase_self` and `get?_erase_of_ne` say how they meet.
* `overlay` — the values of one list in front of those of another.
-/

namespace BuildLint

/-- **Values under keys.** -/
abbrev Keyed (κ ν : Type) := List (κ × ν)

namespace Keyed

variable {κ ν : Type} [DecidableEq κ]

/-- The value under a key. -/
def get? : Keyed κ ν → κ → Option ν
  | [], _ => none
  | (k, v) :: rest, key => if k = key then some v else get? rest key

/-- Let a value stand under a key: in place if there is one, at the end if not. -/
def set : Keyed κ ν → κ → ν → Keyed κ ν
  | [], key, value => [(key, value)]
  | (k, v) :: rest, key, value =>
    if k = key then (k, value) :: rest else (k, v) :: set rest key value

/-- Let nothing stand under a key. -/
def erase (all : Keyed κ ν) (key : κ) : Keyed κ ν := all.filter fun m => m.1 != key

/-- The values of some keys, and of others in front of them. -/
def overlay (base top : Keyed κ ν) : Keyed κ ν := top.foldl (fun all m => set all m.1 m.2) base

theorem get?_set_self (key : κ) (value : ν) (all : Keyed κ ν) :
    get? (set all key value) key = some value := by
  induction all with
  | nil => simp [set, get?]
  | cons m rest ih => obtain ⟨k, v⟩ := m; by_cases h : k = key <;> simp [set, get?, h, ih]

theorem get?_set_of_ne {key other : κ} (h : other ≠ key) (value : ν) (all : Keyed κ ν) :
    get? (set all key value) other = get? all other := by
  induction all with
  | nil => simp [set, get?, Ne.symm h]
  | cons m rest ih =>
    obtain ⟨k, v⟩ := m
    by_cases hk : k = key
    · subst hk; simp [set, get?, Ne.symm h]
    · simp only [set, if_neg hk, get?]; split <;> simp [ih]

theorem get?_erase_self (key : κ) (all : Keyed κ ν) : get? (erase all key) key = none := by
  induction all with
  | nil => rfl
  | cons m rest ih =>
    obtain ⟨k, v⟩ := m
    by_cases h : k = key <;> simp_all [erase, get?]

theorem get?_erase_of_ne {key other : κ} (h : other ≠ key) (all : Keyed κ ν) :
    get? (erase all key) other = get? all other := by
  induction all with
  | nil => rfl
  | cons m rest ih =>
    obtain ⟨k, v⟩ := m
    by_cases hk : k = key
    · subst hk; simpa [erase, get?, Ne.symm h] using ih
    · simp only [erase] at ih ⊢
      simp [get?, hk, ih]

end Keyed

end BuildLint

import BuildLint.Json.Reader
import Mathlib.Tactic.SplitIfs

/-!
# Proofs/Json/Scan — one step of reading a value

What the readers for values, items and members do with a little fuel more than they hand on.  These
steps are all that soundness and the round trip ask of them.
-/

namespace BuildLint

namespace Json

variable {fuel : Nat} {rest s r : Text} {v : Json}

/-! ## A value -/

theorem scan_string :
    scan (fuel + 1) (CodePoint.ofChar '"' :: rest) =
      (scanString (CodePoint.ofChar '"' :: rest) none rest).map fun (s, r) => (.string s, r) := by
  rw [scan, if_pos rfl]

/-- A bracket that is closed at once. -/
theorem scan_array_of_close (h : skip rest = CodePoint.ofChar ']' :: r) :
    scan (fuel + 1) (CodePoint.ofChar '[' :: rest) = .ok (.array [], r) := by
  rw [scan, if_neg (by decide), if_pos rfl, h]
  exact if_pos rfl

/-- A bracket that is not closed at once. -/
theorem scan_array_of_open (h : ∀ r, skip rest ≠ CodePoint.ofChar ']' :: r) :
    scan (fuel + 1) (CodePoint.ofChar '[' :: rest) = scanItems fuel [] (skip rest) := by
  rw [scan, if_neg (by decide), if_pos rfl]
  cases hskip : skip rest with
  | nil => rfl
  | cons d t =>
    refine if_neg ?_
    rintro rfl
    exact h t hskip

/-- A brace that is closed at once. -/
theorem scan_object_of_close (h : skip rest = CodePoint.ofChar '\x7d' :: r) :
    scan (fuel + 1) (CodePoint.ofChar '\x7b' :: rest) = .ok (.object [], r) := by
  rw [scan, if_neg (by decide), if_neg (by decide), if_pos rfl, h]
  exact if_pos rfl

/-- A brace that is not closed at once. -/
theorem scan_object_of_open (h : ∀ r, skip rest ≠ CodePoint.ofChar '\x7d' :: r) :
    scan (fuel + 1) (CodePoint.ofChar '\x7b' :: rest) = scanMembers fuel [] (skip rest) := by
  rw [scan, if_neg (by decide), if_neg (by decide), if_pos rfl]
  cases hskip : skip rest with
  | nil => rfl
  | cons d t =>
    refine if_neg ?_
    rintro rfl
    exact h t hskip

theorem scan_scalar {c : CodePoint} (hquote : c ≠ '"') (hbracket : c ≠ '[') (hbrace : c ≠ '\x7b') :
    scan (fuel + 1) (c :: rest) = scanScalar (c :: rest) := by
  rw [scan, if_neg hquote, if_neg hbracket, if_neg hbrace]

/-! ## Items and members -/

/-- After a part comes the closing code point, or a comma and more. -/
theorem close_or_comma {close : CodePoint} (hne : close ≠ ',') {fault : Problem × Text}
    {wrong : CodePoint → Text → Problem × Text} {done : Json} {more : Text → Scan Json} :
    (match s with
      | [] => .error fault
      | d :: u =>
        if d = close then .ok (done, u)
        else if d = ',' then more u
        else .error (wrong d u) : Scan Json) = .ok (v, r) ↔
      s = close :: r ∧ v = done ∨ ∃ u, s = CodePoint.ofChar ',' :: u ∧ more u = .ok (v, r) := by
  cases s with
  | nil => simp
  | cons d u =>
    by_cases hclose : d = close
    · subst hclose
      simp only [if_true, List.cons.injEq, true_and, hne, false_and, exists_false, or_false,
        Except.ok.injEq, Prod.mk.injEq]
      exact ⟨fun h => ⟨h.2, h.1.symm⟩, fun h => ⟨h.2.symm, h.1⟩⟩
    · by_cases hcomma : d = ','
      · subst hcomma
        simp [hclose]
      · simp [hclose, hcomma]

/-- **An item** is the last one, or a comma and more items follow. -/
theorem scanItems_eq_ok {before : List Json} :
    scanItems (fuel + 1) before s = .ok (v, r) ↔
      ∃ w t, scan fuel s = .ok (w, t) ∧
        (skip t = CodePoint.ofChar ']' :: r ∧ v = .array (w :: before).reverse ∨
          ∃ u, skip t = CodePoint.ofChar ',' :: u ∧
            scanItems fuel (w :: before) (skip u) = .ok (v, r)) := by
  rw [scanItems]
  cases hscan : scan fuel s with
  | error e => simp
  | ok found =>
    obtain ⟨w, t⟩ := found
    refine (close_or_comma (by decide)).trans ⟨fun h => ⟨w, t, rfl, h⟩, ?_⟩
    rintro ⟨w', t', h, hrest⟩
    obtain ⟨rfl, rfl⟩ := Prod.mk.inj (Except.ok.inj h)
    exact hrest

/-- **A member** is the last one, or a comma and more members follow. -/
theorem scanMembers_eq_ok {before : Members} :
    scanMembers (fuel + 1) before s = .ok (v, r) ↔
      ∃ q key t u w z, s = CodePoint.ofChar '"' :: q ∧
        scanString s none q = .ok (key, t) ∧ skip t = CodePoint.ofChar ':' :: u ∧
        scan fuel (skip u) = .ok (w, z) ∧
        (skip z = CodePoint.ofChar '\x7d' :: r ∧ v = .object (Keyed.set before key w) ∨
          ∃ y, skip z = CodePoint.ofChar ',' :: y ∧
            scanMembers fuel (Keyed.set before key w) (skip y) = .ok (v, r)) := by
  constructor
  · intro h
    cases s with
    | nil => cases h
    | cons d q =>
      rw [scanMembers] at h
      split_ifs at h with hquote
      subst hquote
      cases hkey : scanString (CodePoint.ofChar '"' :: q) none q with
      | error e =>
        rw [hkey] at h
        cases h
      | ok found =>
        obtain ⟨key, t⟩ := found
        rw [hkey] at h
        dsimp only at h
        split at h
        · cases h
        · rename_i d u hcolon
          split_ifs at h with hd
          subst hd
          cases hscan : scan fuel (skip u) with
          | error e =>
            rw [hscan] at h
            cases h
          | ok found =>
            obtain ⟨w, z⟩ := found
            rw [hscan] at h
            exact ⟨q, key, t, u, w, z, rfl, hkey, hcolon, hscan,
              (close_or_comma (by decide)).1 h⟩
  · rintro ⟨q, key, t, u, w, z, rfl, hkey, hcolon, hscan, h⟩
    rw [scanMembers, if_pos rfl, hkey]
    dsimp only
    rw [hcolon]
    dsimp only
    rw [if_pos rfl, hscan]
    exact (close_or_comma (by decide)).2 h

end Json

end BuildLint

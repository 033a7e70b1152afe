import BuildLint.Analysis.Arguments
import Mathlib.Algebra.Ring.Parity

/-!
# Proofs/CommandLine/Tokens — which texts of arguments can be cut, and joined texts

Quotes are the only thing that can go wrong, and they go wrong by their number alone: it makes no
difference what stands between them, or whether one begins an argument, ends it or splits it.

Behind a text that can be cut no quote is open, so a space that follows it ends its last argument
(`split?_append_space`).  Texts joined with spaces therefore keep to themselves: together they have
the arguments that each of them has (`split?_joinWith`).
-/

namespace BuildLint

namespace Tokens

/-- Every double quote opens or closes, so what counts is how many are still to come. -/
theorem scan_eq_none_iff (quoted : Bool) (open? : Option Text) (t : Text) :
    scan quoted open? t = none ↔ Odd (t.count ('"' : CodePoint) + quoted.toNat) := by
  induction t generalizing quoted open? with
  | nil => cases quoted <;> simp [scan]
  | cons c rest ih =>
    rw [scan]
    split
    · rename_i hquote
      subst hquote
      rw [ih, List.count_cons_self]
      cases quoted with
      | false => exact Iff.rfl
      | true =>
        have hclosed : Odd (rest.count ('"' : CodePoint) + 1 + 1) ↔
            Odd (rest.count ('"' : CodePoint)) := by
          rw [Nat.odd_add_one, Nat.odd_add_one, not_not]
        exact hclosed.symm
    · rename_i hquote
      rw [List.count_cons_of_ne hquote]
      split
      · rename_i hseparator
        have hopen : quoted = false := by simpa using (Bool.and_eq_true_iff.1 hseparator).1
        rw [Option.map_eq_none_iff, ih, hopen]
      · exact ih quoted _

/-- **A text can be cut into arguments** unless its number of double quotes is odd. -/
theorem split?_eq_none_iff (t : Text) : split? t = none ↔ Odd (t.count ('"' : CodePoint)) :=
  scan_eq_none_iff false none t

/-! ## Joined texts -/

/-- **A space behind a text that can be cut** ends its last argument. -/
theorem scan_append_space {quoted : Bool} {open? : Option Text} {t : Text} {arguments : List Text}
    (h : scan quoted open? t = some arguments) (rest : Text) :
    scan quoted open? (t ++ " " ++ rest) = (scan false none rest).map (arguments ++ ·) := by
  induction t generalizing quoted open? arguments with
  | nil =>
    cases quoted with
    | false =>
      obtain rfl := Option.some.inj h
      rfl
    | true => cases h
  | cons c t ih =>
    rw [scan] at h
    rw [List.cons_append, List.cons_append, scan]
    split at h
    · rename_i hquote
      rw [if_pos hquote, ih h]
    · rename_i hquote
      rw [if_neg hquote]
      split at h
      · rename_i hseparator
        obtain ⟨others, hothers, rfl⟩ := Option.map_eq_some_iff.1 h
        rw [if_pos hseparator, ih hothers, Option.map_map]
        exact congrArg (Option.map · _) (funext fun _ => (List.append_assoc ..).symm)
      · rename_i hseparator
        rw [if_neg hseparator, ih h]

theorem split?_append_space {t : Text} {arguments : List Text} (h : split? t = some arguments)
    (rest : Text) : split? (t ++ " " ++ rest) = (split? rest).map (arguments ++ ·) :=
  scan_append_space h rest

/-- **Texts joined with spaces** have the arguments of each, one text after the other. -/
theorem split?_joinWith {texts : List Text} {arguments : List (List Text)}
    (h : List.Forall₂ (fun t own => split? t = some own) texts arguments) :
    split? (Text.joinWith " " texts) = some arguments.flatten := by
  induction h with
  | nil => rfl
  | @cons t own texts arguments ht hrest ih =>
    cases hrest with
    | nil => rw [Text.joinWith_singleton, ht, List.flatten_singleton]
    | cons hnext hrest =>
      rw [Text.joinWith_cons_cons, split?_append_space ht, ih]
      rfl

/-- Joining with spaces adds no double quote. -/
theorem count_joinWith (texts : List Text) :
    (Text.joinWith " " texts).count ('"' : CodePoint) =
      (texts.map (·.count ('"' : CodePoint))).sum := by
  induction texts with
  | nil => rfl
  | cons t texts ih =>
    cases texts with
    | nil => simp
    | cons next rest =>
      have hspace : (Text.ofString " " : Text).count ('"' : CodePoint) = 0 := by decide
      rw [Text.joinWith_cons_cons, List.count_append, List.count_append, hspace, ih, Nat.add_zero]
      rfl

end Tokens

end BuildLint

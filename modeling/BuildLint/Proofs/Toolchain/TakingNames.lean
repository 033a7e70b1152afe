import BuildLint.Proofs.Path.Resolving
import BuildLint.Proofs.Toolchain.Installation
import Mathlib.Data.List.TakeWhile

/-!
# Proofs/Toolchain/TakingNames — taking names off a compiler path comes to an end

The names of a compiler path are taken off the end of its normal form, one in each round, until no
last name is left.  A round leaves a shorter path, whether drives are spelled or slashes alone, so
the rounds come to an end (`Spelling.wellFounded_round`), and any rounds are the first of those that
end (`Spelling.Taken.isPrefix`).  Among slashes alone no name of the normal form is left then.

* `Spelling.Round`, `Spelling.Taken` — one round, and the names that some rounds take.
* `Layout.components_taken` — which names are taken off a compiler path.
-/

namespace BuildLint

namespace Path

namespace Spelling

variable {s : Spelling} {p rest : Text} {names : List Text}

/-- **One round** takes the last name off a path, if there is one. -/
def Round (s : Spelling) (rest p : Text) : Prop := s.lastName p ≠ [] ∧ rest = s.beforeLast p

/-- **Names taken off a path** in some rounds, and what is left of it. -/
inductive Taken (s : Spelling) : Text → List Text → Text → Prop
  | none (p : Text) : Taken s p [] p
  | name {p next rest : Text} {names : List Text} (round : s.Round next p)
      (more : Taken s next names rest) : Taken s p (s.lastName p :: names) rest

/-- A round leaves a shorter path. -/
theorem Round.length_lt (h : s.Round rest p) : rest.length < p.length := by
  obtain ⟨hname, rfl⟩ := h
  have hle := length_beforeLast_add_lastName_le s p
  have hpos := List.length_pos_iff.2 hname
  omega

/-- **Rounds come to an end**, from any path on. -/
theorem wellFounded_round (s : Spelling) : WellFounded s.Round :=
  Subrelation.wf Round.length_lt (measure List.length).wf

theorem namesFromEnd_of_round (h : s.Round rest p) :
    s.namesFromEnd p = s.lastName p :: s.namesFromEnd rest := by
  obtain ⟨hname, rfl⟩ := h
  rw [namesFromEnd, if_neg hname]

theorem isWhole_lastName (h : s.lastName p ≠ []) : s.IsWhole (s.lastName p) := by
  refine ⟨h, fun c hc => ?_⟩
  have hother := List.mem_takeWhile_imp (List.mem_reverse.1 hc)
  rwa [Bool.not_eq_true'] at hother

/-- **The names of a path** are taken in rounds, until no last name is left. -/
theorem exists_taken (s : Spelling) (p : Text) :
    ∃ rest, s.Taken p (s.namesFromEnd p) rest ∧ s.lastName rest = [] := by
  induction p using (wellFounded_round s).induction with
  | _ p ih =>
    by_cases hname : s.lastName p = []
    · rw [namesFromEnd, if_pos hname]
      exact ⟨p, .none p, hname⟩
    · have hround : s.Round (s.beforeLast p) p := ⟨hname, rfl⟩
      obtain ⟨rest, htaken, hend⟩ := ih _ hround
      rw [namesFromEnd_of_round hround]
      exact ⟨rest, .name hround htaken, hend⟩

namespace Taken

/-- **Any rounds** are the first of those that end. -/
theorem isPrefix (h : s.Taken p names rest) : names <+: s.namesFromEnd p := by
  induction h with
  | none p => exact List.nil_prefix
  | name hround _ ih =>
    rw [namesFromEnd_of_round hround]
    exact (List.prefix_cons_inj _).2 ih

/-- Each round makes the path shorter, so there are no more of them than code points. -/
theorem length_add_le (h : s.Taken p names rest) : names.length + rest.length ≤ p.length := by
  induction h with
  | none p => rw [List.length_nil, Nat.zero_add]
  | name hround _ ih =>
    have hlt := hround.length_lt
    rw [List.length_cons]
    omega

/-- No separator is taken off, so neither is a root. -/
theorem isWhole (h : s.Taken p names rest) : ∀ name ∈ names, s.IsWhole name := by
  induction h with
  | none p => exact fun _ hmem => absurd hmem List.not_mem_nil
  | name hround _ ih => exact List.forall_mem_cons.2 ⟨isWhole_lastName hround.1, ih⟩

end Taken

end Spelling

/-- The names in the normal form of an absolute path are its components. -/
theorem normalNames_eq_components {p : Text} (h : isAbsolute p = true) :
    normalNames p = components p := by
  have hnormal := isNormal_normalize h
  rw [normalNames, hnormal.eq_spell, parts_spell_filter hnormal.areWhole]

end Path

namespace Layout

/-- **Names taken off a compiler path** in some rounds, from its normal form on. -/
def Taken (path : Text) (names : List Text) (rest : Text) : Prop :=
  (Path.Spelling.ofPath path).Taken ((Path.Spelling.ofPath path).normalize path) names rest

/-- **The names of a compiler path** come off its normal form in rounds that end, however it is
spelled: there are no more rounds than code points, and any rounds are the first of these.  No name
that is taken holds a separator.  Of a path without backslashes they are all the names of the normal
form, last one first; where it is absolute, these are the components that it leads through. -/
theorem components_taken :
    (∀ s : Path.Spelling, WellFounded s.Round) ∧
    (∀ path,
      (∃ rest, Taken path (components path) rest ∧
        (Path.Spelling.ofPath path).lastName rest = []) ∧
      (∀ names rest, Taken path names rest → names <+: components path ∧
        names.length + rest.length ≤ ((Path.Spelling.ofPath path).normalize path).length) ∧
      ∀ name ∈ components path, (Path.Spelling.ofPath path).IsWhole name) ∧
    ∀ path, ('\\' : CodePoint) ∉ path → ∃ names, components path = names.reverse ∧
      Path.normalize path =
        Text.run (Path.leadingSlashes path) '/' ++ Text.joinWith "/" names ∧
      (∀ name ∈ names, name ≠ [] ∧ ('/' : CodePoint) ∉ name) ∧
      (Path.isAbsolute path = true → names = Path.components path) := by
  refine ⟨Path.Spelling.wellFounded_round, fun path => ?_, fun path hpath => ?_⟩
  · have hall := Path.Spelling.exists_taken (Path.Spelling.ofPath path)
      ((Path.Spelling.ofPath path).normalize path)
    obtain ⟨rest, htaken, hend⟩ := hall
    refine ⟨⟨rest, htaken, hend⟩, fun names rest h => ?_, htaken.isWhole⟩
    exact ⟨Path.Spelling.Taken.isPrefix h, Path.Spelling.Taken.length_add_le h⟩
  · obtain ⟨hspell, hwhole⟩ := Path.normalize_eq_spell path
    exact ⟨Path.normalNames path, components_eq hpath, hspell,
      fun name hname => Path.isWhole_iff.1 (hwhole name hname), Path.normalNames_eq_components⟩

example : components "//srv/../vc/./bin/cl.exe/" = [("cl.exe" : Text), "bin", "vc"] := by
  decide +kernel

end Layout

end BuildLint

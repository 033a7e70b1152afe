import BuildLint.Analysis.Arguments
import BuildLint.Proofs.CMake.CodeModel
import BuildLint.Proofs.CommandLine.Tokens
import BuildLint.Proofs.Json.Shapes

/-!
# Proofs/Analysis/Flags — the flags of a unit are those of its fragments

A compile group gives the flags of its sources in fragments.  A unit has them as one text, joined
with spaces, and the call for the unit has that text cut into arguments.  Fragments in which every
quote is closed keep to themselves on the way, whatever blanks and quotes they hold.

* `CompileUnit.HasFragments` — what the fragments of a group are; `exists_fragments` finds them in
  any group of which a unit is made.
* `Arguments.ofUnit_fragments` — the flags in a call are those of each fragment, in order.
-/

namespace BuildLint

namespace CompileUnit

variable {group : Json} {source : Text} {u : CompileUnit}

/-- **The fragments of a compile group**: those it lists, none if what it says of them does not
count as present. -/
def HasFragments (group : Json) (fragments : List Text) : Prop :=
  ∃ said, group.lookup "compileCommandFragments" = .ok said ∧
    (said.isTruthy = false ∧ fragments = [] ∨
      ∃ items, said = .array items ∧ List.Forall₂ (Json.Names "fragment") items fragments)

theorem HasFragments.unique {fragments others : List Text} (h : HasFragments group fragments)
    (hothers : HasFragments group others) : fragments = others := by
  have hnames : Relator.RightUnique (Json.Names "fragment") := fun _ _ _ hs ht =>
    Json.string.inj (Except.ok.inj (hs.symm.trans ht))
  obtain ⟨said, hsaid, h⟩ := h
  obtain ⟨said', hsaid', hothers⟩ := hothers
  obtain rfl := Except.ok.inj (hsaid.symm.trans hsaid')
  rcases h with ⟨hfalse, rfl⟩ | ⟨items, rfl, hitems⟩
  · rcases hothers with ⟨-, rfl⟩ | ⟨items, rfl, hitems⟩
    · rfl
    · obtain rfl : items = [] := by simpa [Json.isTruthy] using hfalse
      exact (List.forall₂_nil_left_iff.1 hitems).symm
  · rcases hothers with ⟨hfalse, rfl⟩ | ⟨items', hsame, hitems'⟩
    · obtain rfl : items = [] := by simpa [Json.isTruthy] using hfalse
      exact List.forall₂_nil_left_iff.1 hitems
    · obtain rfl := Json.array.inj hsame
      exact hnames.forall₂ hitems hitems'

/-- What has members under a key can only come from a list: the keys of an object and the characters
of a text are texts. -/
theorem exists_of_listed {key name : Text} {items fields : List Json}
    (hitems : listed group key = .ok items) (hfields : items.mapM (·.field name) = .ok fields) :
    ∃ said, group.lookup key = .ok said ∧
      (said.isTruthy = false ∧ items = [] ∨ said = .array items) := by
  obtain ⟨said, hsaid, hiterate⟩ := Steps.bind_eq_ok.1 hitems
  refine ⟨said, hsaid, ?_⟩
  cases htruthy : said.isTruthy with
  | false =>
    rw [Json.orElse_of_not_isTruthy htruthy] at hiterate
    exact .inl ⟨rfl, (Except.ok.inj hiterate).symm⟩
  | true =>
    rw [Json.orElse_of_isTruthy htruthy] at hiterate
    have hobject : ∀ w ∈ items, w.IsObject := fun w hw =>
      have ⟨_, hfield⟩ := Steps.exists_of_mapM hfields hw
      Json.isObject_of_field hfield
    have hne := (Json.isTruthy_iff_of_iterate hiterate).1 htruthy
    obtain ⟨w, hw⟩ := List.exists_mem_of_ne_nil _ hne
    obtain ⟨members, rfl⟩ := hobject w hw
    cases said with
    | array items => exact .inr (congrArg Json.array (Except.ok.inj hiterate))
    | object members =>
      obtain rfl := Except.ok.inj hiterate
      obtain ⟨_, -, h⟩ := List.mem_map.1 hw
      cases h
    | string s =>
      obtain rfl := Except.ok.inj hiterate
      obtain ⟨_, -, h⟩ := List.mem_map.1 hw
      cases h
    | _ => cases hiterate

/-- **A unit that is made of a group** has the fragments of the group, joined with spaces. -/
theorem exists_fragments (h : ofGroup group source = .ok u) :
    ∃ fragments, HasFragments group fragments ∧ u.flags = Text.joinWith " " fragments ∧
      u.source = source := by
  simp only [ofGroup, Steps.bind_eq_ok] at h
  obtain ⟨_, -, _, -, _, -, items, hitems, fields, hfields, fragments, hfragments, _, -, _, -, _, -,
    _, -, hu⟩ := h
  obtain rfl := Except.ok.inj hu
  refine ⟨fragments, ?_, rfl, rfl⟩
  have htexts : List.Forall₂ (fun w fragment => w = .string fragment) fields fragments :=
    (Steps.mapM_eq_ok.1 hfragments).imp fun _ _ => Json.eq_string_of_text
  obtain rfl : fields = fragments.map .string := by
    rwa [← List.forall₂_map_right_iff, List.forall₂_eq_eq_eq] at htexts
  have hnames : List.Forall₂ (Json.Names "fragment") items fragments := by
    rw [Steps.mapM_eq_ok, List.forall₂_map_right_iff] at hfields
    exact hfields
  obtain ⟨said, hsaid, ⟨hfalse, rfl⟩ | rfl⟩ := exists_of_listed hitems hfields
  · exact ⟨said, hsaid, .inl ⟨hfalse, List.forall₂_nil_left_iff.1 hnames⟩⟩
  · exact ⟨_, hsaid, .inr ⟨items, rfl, hnames⟩⟩

end CompileUnit

namespace Arguments

open CompileUnit

/-- **The flags in a call are those of the fragments**, one fragment after the other, if every quote
is closed in the fragment that opens it.  In any case cutting them fails exactly if the fragments
together hold an odd number of double quotes. -/
theorem ofUnit_fragments {group : Json} {source : Text} {u : CompileUnit}
    (h : ofGroup group source = .ok u) (t : Toolchain) (options : Options) :
    (∃! fragments, HasFragments group fragments) ∧
    ∀ fragments, HasFragments group fragments →
      ((∀ fragment ∈ fragments, Even (fragment.count ('"' : CodePoint))) →
        ∃ flags, List.Forall₂ (fun fragment own => Tokens.split? fragment = some own)
            fragments flags ∧
          ofUnit u t options = .ok (flags.flatten ++
            (u.includes ++ t.implicitIncludes).map (ofInclude options) ++
            u.defines.map (fun d => Text.ofString "/D" ++ d.plain) ++ [source])) ∧
      ((∃ cause, ofUnit u t options = .error (.failure (.synthesis cause))) ↔
        Odd (fragments.map (·.count ('"' : CodePoint))).sum) ∧
      ((∃ arguments, ofUnit u t options = .ok arguments) ↔
        ¬Odd (fragments.map (·.count ('"' : CodePoint))).sum) := by
  obtain ⟨own, hown, hflags, hsource⟩ := exists_fragments h
  refine ⟨⟨own, hown, fun _ hothers => hothers.unique hown⟩, fun fragments hfragments => ?_⟩
  obtain rfl := hown.unique hfragments
  have hnone : Tokens.split? u.flags = none ↔ Odd (own.map (·.count ('"' : CodePoint))).sum := by
    rw [Tokens.split?_eq_none_iff, hflags, Tokens.count_joinWith]
  refine ⟨fun heven => ?_, ?_⟩
  · have hsplit : ∀ fragment ∈ own, Tokens.split? fragment =
        some ((Tokens.split? fragment).getD []) := fun fragment hmem => by
      have hsome := mt (Tokens.split?_eq_none_iff fragment).1
        (Nat.not_odd_iff_even.2 (heven fragment hmem))
      obtain ⟨flags, hflags⟩ := Option.ne_none_iff_exists'.1 hsome
      rw [hflags, Option.getD_some]
    have hall : List.Forall₂ (fun fragment flags => Tokens.split? fragment = some flags) own
        (own.map fun fragment => (Tokens.split? fragment).getD []) :=
      List.forall₂_map_right_iff.2 (List.forall₂_same.2 hsplit)
    refine ⟨_, hall, ?_⟩
    rw [ofUnit, hflags, Tokens.split?_joinWith hall, hsource]
  · rw [← hnone, ofUnit]
    cases Tokens.split? u.flags with
    | none => simp
    | some flags => simp

/-- A group with three fragments: two arguments between blanks, nothing, and an empty argument. -/
def threeFragments : Json :=
  .object [("compileCommandFragments", .array [
    .object [("fragment", .string " /DX=\"a b\"  /W4 ")], .object [("fragment", .string [])],
    .object [("fragment", .string "\"\"")]])]

/-- A compiler without headers of its own. -/
def bareCompiler : Toolchain :=
  ⟨.string "C", "/m/T/bin/Hostx64/x64/cl.exe", .string [], "T", "x64", "x64", []⟩

theorem ofUnit_fragments_threeFragments : ∃ u flags,
    ofGroup threeFragments "/a.c" = .ok u ∧
      List.Forall₂ (fun fragment own => Tokens.split? fragment = some own)
        [(" /DX=\"a b\"  /W4 " : Text), "", "\"\""] flags ∧
      ofUnit u bareCompiler {} = .ok (flags.flatten ++ [("/a.c" : Text)]) := by
  have hu : ofGroup threeFragments "/a.c" =
      .ok ⟨"/a.c", .string [], " /DX=\"a b\"  /W4   \"\"", .null, [], []⟩ := rfl
  have hfragments : HasFragments threeFragments [" /DX=\"a b\"  /W4 ", "", "\"\""] :=
    ⟨_, rfl, .inr ⟨_, rfl, .cons rfl (.cons rfl (.cons rfl .nil))⟩⟩
  obtain ⟨flags, hflags, h⟩ :=
    ((ofUnit_fragments hu bareCompiler {}).2 _ hfragments).1 (by decide)
  exact ⟨_, flags, hu, hflags, by simpa [bareCompiler] using h⟩

end Arguments

end BuildLint

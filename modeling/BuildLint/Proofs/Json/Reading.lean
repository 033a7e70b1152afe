import BuildLint.Proofs.Json.Numbers
import BuildLint.Proofs.Json.Scan
import BuildLint.Proofs.Json.Strings
import BuildLint.Proofs.Steps

/-!
# Proofs/Json/Reading — a text can spell what is read from it

Every value that is read from Unicode characters is one that a text can spell (`read_isSpellable`).
The readers for values, items and members call each other with less fuel, so one induction on the
fuel treats them together.
-/

namespace BuildLint

namespace Json

/-! ## Giving a member a value -/

/-- **Giving a member a value** that a text can spell. -/
theorem IsSpellable.set {key : Text} {v : Json} {members : Members}
    (hmembers : IsSpellable (.object members)) (hkey : key.Unpaired) (hv : v.IsSpellable) :
    IsSpellable (.object (Keyed.set members key v)) := by
  cases hmembers with
  | object once unpaired parts =>
    refine .object (Keyed.nodup_keys_set once key v) (fun m hm => ?_) (fun m hm => ?_)
    · rcases Keyed.mem_set hm with rfl | hm
      · exact hkey
      · exact unpaired m hm
    · rcases Keyed.mem_set hm with rfl | hm
      · exact hv
      · exact parts m hm

/-- The object without members. -/
theorem isSpellable_empty : IsSpellable (.object []) :=
  .object List.nodup_nil (fun _ h => absurd h List.not_mem_nil) fun _ h => absurd h List.not_mem_nil

/-! ## The readers -/

/-- **What a reader makes sure of**: it takes a value that a text can spell from the front. -/
def Sound (reader : Text → Scan Json) : Prop :=
  ∀ s v r, s.IsUnicode → reader s = .ok (v, r) → r <:+ s ∧ v.IsSpellable

theorem suffix_skip (s : Text) : skip s <:+ s := List.dropWhile_suffix _

variable {fuel : Nat}

/-- A string, and what follows it. -/
theorem scanString_spellable {opening s t r : Text} (hs : s.IsUnicode)
    (h : scanString opening none s = .ok (t, r)) : r <:+ s ∧ t.Unpaired :=
  ⟨(readsString_of_scanString h).suffix, unpaired_of_scanString hs h⟩

/-- **A value**, if items and members are read soundly. -/
theorem scan_sound (hitems : Sound (scanItems fuel []))
    (hmembers : Sound (scanMembers fuel [])) : Sound (scan (fuel + 1)) := by
  intro s v r hs h
  cases s with
  | nil => cases h
  | cons c rest =>
    have hrest : rest <:+ c :: rest := List.suffix_cons c rest
    have hskip := (suffix_skip rest).trans hrest
    by_cases hquote : c = '"'
    · subst hquote
      rw [scan_string] at h
      cases hstring : scanString (CodePoint.ofChar '"' :: rest) none rest with
      | error e =>
        rw [hstring] at h
        cases h
      | ok found =>
        rw [hstring] at h
        obtain ⟨rfl, rfl⟩ := Prod.mk.inj (Except.ok.inj h)
        obtain ⟨hsuffix, hunpaired⟩ := scanString_spellable (hs.of_suffix hrest) hstring
        exact ⟨hsuffix.trans hrest, .string hunpaired⟩
    by_cases hbracket : c = '['
    · subst hbracket
      by_cases hclose : ∃ u, skip rest = CodePoint.ofChar ']' :: u
      · obtain ⟨u, hu⟩ := hclose
        rw [scan_array_of_close hu] at h
        obtain ⟨rfl, rfl⟩ := Prod.mk.inj (Except.ok.inj h)
        rw [hu] at hskip
        exact ⟨(List.suffix_cons _ u).trans hskip, .array fun _ h => absurd h List.not_mem_nil⟩
      · rw [scan_array_of_open fun u hu => hclose ⟨u, hu⟩] at h
        obtain ⟨hsuffix, hv⟩ := hitems _ _ _ (hs.of_suffix hskip) h
        exact ⟨hsuffix.trans hskip, hv⟩
    by_cases hbrace : c = '\x7b'
    · subst hbrace
      by_cases hclose : ∃ u, skip rest = CodePoint.ofChar '\x7d' :: u
      · obtain ⟨u, hu⟩ := hclose
        rw [scan_object_of_close hu] at h
        obtain ⟨rfl, rfl⟩ := Prod.mk.inj (Except.ok.inj h)
        rw [hu] at hskip
        exact ⟨(List.suffix_cons _ u).trans hskip, isSpellable_empty⟩
      · rw [scan_object_of_open fun u hu => hclose ⟨u, hu⟩] at h
        obtain ⟨hsuffix, hv⟩ := hmembers _ _ _ (hs.of_suffix hskip) h
        exact ⟨hsuffix.trans hskip, hv⟩
    rw [scan_scalar hquote hbracket hbrace] at h
    exact scanScalar_spellable h

/-- **Items**, if values and further items are read soundly. -/
theorem scanItems_sound (hscan : Sound (scan fuel))
    (hitems : ∀ before, IsSpellable (.array before) → Sound (scanItems fuel before))
    {before : List Json} (hbefore : IsSpellable (.array before)) :
    Sound (scanItems (fuel + 1) before) := by
  intro s v r hs h
  obtain ⟨w, t, hw, hnext⟩ := scanItems_eq_ok.1 h
  obtain ⟨hsuffix, hspellable⟩ := hscan _ _ _ hs hw
  have hskip := (suffix_skip t).trans hsuffix
  have hall : ∀ x ∈ w :: before, IsSpellable x := by
    cases hbefore with
    | array parts => exact List.forall_mem_cons.2 ⟨hspellable, parts⟩
  rcases hnext with ⟨hclose, rfl⟩ | ⟨u, hcomma, hrest⟩
  · rw [hclose] at hskip
    exact ⟨(List.suffix_cons _ r).trans hskip, .array fun x hx => hall x (List.mem_reverse.1 hx)⟩
  · rw [hcomma] at hskip
    have hu := (suffix_skip u).trans ((List.suffix_cons _ u).trans hskip)
    obtain ⟨hr, hv⟩ := hitems _ (.array hall) _ _ _ (hs.of_suffix hu) hrest
    exact ⟨hr.trans hu, hv⟩

/-- **Members**, if values and further members are read soundly. -/
theorem scanMembers_sound (hscan : Sound (scan fuel))
    (hmembers : ∀ before, IsSpellable (.object before) → Sound (scanMembers fuel before))
    {before : Members} (hbefore : IsSpellable (.object before)) :
    Sound (scanMembers (fuel + 1) before) := by
  intro s v r hs h
  obtain ⟨q, key, t, u, w, z, rfl, hkey, hcolon, hw, hnext⟩ := scanMembers_eq_ok.1 h
  have hq : q <:+ CodePoint.ofChar '"' :: q := List.suffix_cons _ q
  obtain ⟨ht, hunpaired⟩ := scanString_spellable (hs.of_suffix hq) hkey
  have hu := (suffix_skip t).trans (ht.trans hq)
  rw [hcolon] at hu
  have hvalue := (suffix_skip u).trans ((List.suffix_cons _ u).trans hu)
  obtain ⟨hz, hspellable⟩ := hscan _ _ _ (hs.of_suffix hvalue) hw
  have hskip := (suffix_skip z).trans (hz.trans hvalue)
  have hset := hbefore.set hunpaired hspellable
  rcases hnext with ⟨hclose, rfl⟩ | ⟨y, hcomma, hrest⟩
  · rw [hclose] at hskip
    exact ⟨(List.suffix_cons _ r).trans hskip, hset⟩
  · rw [hcomma] at hskip
    have hy := (suffix_skip y).trans ((List.suffix_cons _ y).trans hskip)
    obtain ⟨hr, hv⟩ := hmembers _ hset _ _ _ (hs.of_suffix hy) hrest
    exact ⟨hr.trans hy, hv⟩

/-- **All readers are sound**, by induction on the fuel. -/
theorem readers_sound (fuel : Nat) : Sound (scan fuel) ∧
    (∀ before, IsSpellable (.array before) → Sound (scanItems fuel before)) ∧
    ∀ before, IsSpellable (.object before) → Sound (scanMembers fuel before) := by
  induction fuel with
  | zero =>
    refine ⟨fun s v r _ h => ?_, fun before _ s v r _ h => ?_, fun before _ s v r _ h => ?_⟩
    · cases h
    · cases h
    · cases h
  | succ fuel ih =>
    obtain ⟨hscan, hitems, hmembers⟩ := ih
    have hempty : IsSpellable (.array []) := .array fun _ h => absurd h List.not_mem_nil
    exact ⟨scan_sound (hitems [] hempty) (hmembers [] isSpellable_empty),
      fun before => scanItems_sound hscan hitems, fun before => scanMembers_sound hscan hmembers⟩

/-- **A text can spell what is read from it.** -/
theorem read_isSpellable {t : Text} {v : Json} (ht : t.IsUnicode) (h : read t = .ok v) :
    v.IsSpellable := by
  have h := Steps.ok_of_mapError.1 h
  rw [scanAll] at h
  split_ifs at h
  cases hscan : scan (2 * t.length + 2) (skip t) with
  | error e =>
    rw [hscan] at h
    cases h
  | ok found =>
    obtain ⟨w, rest⟩ := found
    rw [hscan] at h
    dsimp only at h
    split_ifs at h
    obtain rfl := Except.ok.inj h
    exact ((readers_sound _).1 _ _ _ (ht.of_suffix (suffix_skip t)) hscan).2

end Json

end BuildLint

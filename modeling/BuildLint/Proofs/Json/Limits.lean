import BuildLint.Proofs.Json.Reading

/-!
# Proofs/Json/Limits — the only number that cannot be read

A text whose first problem is a number with too many digits is no JSON text with a mistake in it:
where that problem is met, a whole number stands that has more than `maxDigits` digits, and neither
fraction nor exponent.

* `LongNumber` — a text begins with such a number.
* `longNumber_of_scanAll` — nothing else is met as such a problem.
-/

namespace BuildLint

namespace Json

/-- **A whole number that is too long** stands at the front of a text. -/
def LongNumber (t : Text) : Prop :=
  ∃ digits rest, (t = digits ++ rest ∨ t = CodePoint.ofChar '-' :: (digits ++ rest)) ∧
    (∀ c ∈ digits, c.isDigit = true) ∧ maxDigits < digits.length ∧
    scanFraction rest = none ∧ scanExponent rest = none

variable {s start rest r : Text} {negative : Bool} {whole : Text} {fuel : Nat}

/-! ## Numbers -/

/-- A number whose whole part is known is refused for its length alone. -/
theorem scanNumberFrom_eq_error {problem : Problem}
    (h : scanNumberFrom start negative whole rest = .error (problem, r)) :
    r = start ∧ maxDigits < whole.length ∧ scanFraction rest = none ∧
      scanExponent rest = none := by
  simp only [scanNumberFrom] at h
  split at h
  · cases h
  · rename_i hnone
    rw [Bool.or_eq_true, not_or, Bool.not_eq_true, Bool.not_eq_true, Option.isSome_eq_false_iff,
      Option.isSome_eq_false_iff, Option.isNone_iff_eq_none, Option.isNone_iff_eq_none] at hnone
    obtain ⟨hfraction, hexponent⟩ := hnone
    rw [hfraction, Option.getD_none] at hexponent
    split at h
    · obtain ⟨-, rfl⟩ := Prod.mk.inj (Except.error.inj h)
      exact ⟨rfl, ‹_›, hfraction, hexponent⟩
    · cases h

/-- **A number that is too long** is all that is met as one. -/
theorem longNumber_of_scanNumber (h : scanNumber s = .error (.tooManyDigits, r)) :
    r = s ∧ LongNumber s := by
  have hsign : ∀ u, (if s.beginsWith '-' then s.drop 1 else s) = u →
      s = u ∨ s = CodePoint.ofChar '-' :: u := by
    rintro u rfl
    split
    · rename_i hminus
      cases s with
      | nil => cases hminus
      | cons c s =>
        have hc : c = CodePoint.ofChar '-' := by simpa [Text.beginsWith] using hminus
        exact .inr (by rw [hc]; rfl)
    · exact .inl rfl
  rw [scanNumber] at h
  dsimp only at h
  cases hs : (if s.beginsWith '-' then s.drop 1 else s) with
  | nil =>
    rw [hs] at h
    cases h
  | cons c t =>
    rw [hs] at h
    dsimp only at h
    split at h
    · -- a zero is one digit long
      obtain ⟨-, hlong, -⟩ := scanNumberFrom_eq_error h
      exact absurd hlong (by simp [maxDigits])
    · split at h
      · have hspan : spanDigits (c :: t) = ((c :: t).takeWhile CodePoint.isDigit,
            (c :: t).dropWhile CodePoint.isDigit) := by
          rw [spanDigits, List.span_eq_takeWhile_dropWhile]
        rw [hspan] at h
        obtain ⟨rfl, hlong, hfraction, hexponent⟩ := scanNumberFrom_eq_error h
        refine ⟨rfl, (c :: t).takeWhile CodePoint.isDigit, (c :: t).dropWhile CodePoint.isDigit,
          ?_, List.all_eq_true.1 List.all_takeWhile, hlong, hfraction, hexponent⟩
        rw [List.takeWhile_append_dropWhile]
        exact hsign _ hs
      · cases h

theorem longNumber_of_scanScalar (h : scanScalar s = .error (.tooManyDigits, r)) :
    r = s ∧ LongNumber s := by
  rw [scanScalar] at h
  split at h
  · cases h
  · exact longNumber_of_scanNumber h

/-! ## Strings -/

theorem consPoint_eq_error {c : CodePoint} {rest : Scan Text} {e : Problem × Text} :
    consPoint c rest = .error e ↔ rest = .error e := by
  cases rest with
  | error e' => exact ⟨fun h => congrArg _ (Except.error.inj h),
      fun h => congrArg _ (Except.error.inj h)⟩
  | ok found => exact ⟨fun h => (nomatch h), fun h => (nomatch h)⟩

/-- No string has a number in it. -/
theorem scanString_ne_tooManyDigits (opening : Text) (high : Option CodePoint) (t r : Text) :
    scanString opening high t ≠ .error (.tooManyDigits, r) := by
  intro h
  fun_induction scanString opening high t with
  | case6 high a b x d t u hu hpair ht _ ih =>
    rw [if_pos hpair] at h
    exact ih h
  | case7 high a b x d t u hu hpair ht _ ih =>
    rw [if_neg hpair] at h
    exact ih (consPoint_eq_error.1 h)
  | case9 high e t he p hp _ ih => exact ih (consPoint_eq_error.1 h)
  | case12 high c t _ _ _ ih => exact ih (consPoint_eq_error.1 h)
  | _ => cases h

/-! ## Values -/

/-- **What is too long for a reader** is a number somewhere in its text. -/
def MeetsLongNumber (reader : Text → Scan Json) : Prop :=
  ∀ s r, s.IsUnicode → reader s = .error (.tooManyDigits, r) → r <:+ s ∧ LongNumber r

theorem meets_scan (hitems : MeetsLongNumber (scanItems fuel []))
    (hmembers : MeetsLongNumber (scanMembers fuel [])) : MeetsLongNumber (scan (fuel + 1)) := by
  intro s r hs h
  cases s with
  | nil => cases h
  | cons c rest =>
    have hskip := (suffix_skip rest).trans (List.suffix_cons c rest)
    by_cases hquote : c = '"'
    · subst hquote
      rw [scan_string] at h
      cases hstring : scanString (CodePoint.ofChar '"' :: rest) none rest with
      | error e =>
        rw [hstring] at h
        obtain rfl := Except.error.inj h
        exact absurd hstring (scanString_ne_tooManyDigits _ _ _ _)
      | ok found =>
        rw [hstring] at h
        cases h
    by_cases hbracket : c = '['
    · subst hbracket
      by_cases hclose : ∃ u, skip rest = CodePoint.ofChar ']' :: u
      · obtain ⟨u, hu⟩ := hclose
        rw [scan_array_of_close hu] at h
        cases h
      · rw [scan_array_of_open fun u hu => hclose ⟨u, hu⟩] at h
        obtain ⟨hsuffix, hlong⟩ := hitems _ _ (hs.of_suffix hskip) h
        exact ⟨hsuffix.trans hskip, hlong⟩
    by_cases hbrace : c = '\x7b'
    · subst hbrace
      by_cases hclose : ∃ u, skip rest = CodePoint.ofChar '\x7d' :: u
      · obtain ⟨u, hu⟩ := hclose
        rw [scan_object_of_close hu] at h
        cases h
      · rw [scan_object_of_open fun u hu => hclose ⟨u, hu⟩] at h
        obtain ⟨hsuffix, hlong⟩ := hmembers _ _ (hs.of_suffix hskip) h
        exact ⟨hsuffix.trans hskip, hlong⟩
    rw [scan_scalar hquote hbracket hbrace] at h
    obtain ⟨rfl, hlong⟩ := longNumber_of_scanScalar h
    exact ⟨List.suffix_refl _, hlong⟩

/-- After a part only more parts can have a number that is too long. -/
theorem comma_of_tooManyDigits {close : CodePoint} {done : Text → Json} {more : Text → Scan Json}
    (h : (match s with
      | [] => .error (.expectingComma, [])
      | d :: u =>
        if d = close then .ok (done u, u)
        else if d = ',' then more u
        else .error (.expectingComma, d :: u) : Scan Json) = .error (.tooManyDigits, r)) :
    ∃ u, s = CodePoint.ofChar ',' :: u ∧ more u = .error (.tooManyDigits, r) := by
  cases s with
  | nil => cases h
  | cons d u =>
    dsimp only at h
    split_ifs at h with hclose hcomma
    · exact ⟨u, hcomma ▸ rfl, h⟩
    · cases h

theorem suffix_of_skip {t u : Text} {d : CodePoint} (ht : t <:+ s) (h : skip t = d :: u) :
    skip u <:+ s :=
  (suffix_skip u).trans ((List.suffix_cons d u).trans (h ▸ (suffix_skip t).trans ht))

theorem meets_scanItems (hscan : MeetsLongNumber (scan fuel))
    (hitems : ∀ before, MeetsLongNumber (scanItems fuel before)) (before : List Json) :
    MeetsLongNumber (scanItems (fuel + 1) before) := by
  intro s r hs h
  rw [scanItems] at h
  cases hv : scan fuel s with
  | error e =>
    rw [hv] at h
    obtain rfl := Except.error.inj h
    exact hscan _ _ hs hv
  | ok found =>
    obtain ⟨v, t⟩ := found
    have ht := ((readers_sound fuel).1 _ _ _ hs hv).1
    rw [hv] at h
    obtain ⟨u, hcomma, h⟩ := comma_of_tooManyDigits h
    have hu := suffix_of_skip ht hcomma
    obtain ⟨hsuffix, hlong⟩ := hitems _ _ _ (hs.of_suffix hu) h
    exact ⟨hsuffix.trans hu, hlong⟩

theorem meets_scanMembers (hscan : MeetsLongNumber (scan fuel))
    (hmembers : ∀ before, MeetsLongNumber (scanMembers fuel before)) (before : Members) :
    MeetsLongNumber (scanMembers (fuel + 1) before) := by
  intro s r hs h
  cases s with
  | nil => cases h
  | cons q s =>
    have hq : s <:+ q :: s := List.suffix_cons q s
    rw [scanMembers] at h
    split at h
    swap
    · cases h
    cases hkey : scanString (q :: s) none s with
    | error e =>
      rw [hkey] at h
      obtain rfl := Except.error.inj h
      exact absurd hkey (scanString_ne_tooManyDigits _ _ _ _)
    | ok found =>
      obtain ⟨key, t⟩ := found
      have ht := (scanString_spellable (hs.of_suffix hq) hkey).1.trans hq
      rw [hkey] at h
      dsimp only at h
      split at h
      · cases h
      · rename_i d u hcolon
        split at h
        swap
        · cases h
        have hu := suffix_of_skip ht hcolon
        cases hv : scan fuel (skip u) with
        | error e =>
          rw [hv] at h
          obtain rfl := Except.error.inj h
          obtain ⟨hsuffix, hlong⟩ := hscan _ _ (hs.of_suffix hu) hv
          exact ⟨hsuffix.trans hu, hlong⟩
        | ok found =>
          obtain ⟨v, z⟩ := found
          have hz := ((readers_sound fuel).1 _ _ _ (hs.of_suffix hu) hv).1.trans hu
          rw [hv] at h
          obtain ⟨y, hcomma, h⟩ := comma_of_tooManyDigits h
          have hy := suffix_of_skip hz hcomma
          obtain ⟨hsuffix, hlong⟩ := hmembers _ _ _ (hs.of_suffix hy) h
          exact ⟨hsuffix.trans hy, hlong⟩

/-- **All readers** meet nothing else, by induction on the fuel. -/
theorem readers_meet (fuel : Nat) : MeetsLongNumber (scan fuel) ∧
    (∀ before, MeetsLongNumber (scanItems fuel before)) ∧
    ∀ before, MeetsLongNumber (scanMembers fuel before) := by
  induction fuel with
  | zero =>
    refine ⟨fun s r _ h => ?_, fun before s r _ h => ?_, fun before s r _ h => ?_⟩
    · cases h
    · cases h
    · cases h
  | succ fuel ih =>
    obtain ⟨hscan, hitems, hmembers⟩ := ih
    exact ⟨meets_scan (hitems []) (hmembers []), meets_scanItems hscan hitems,
      meets_scanMembers hscan hmembers⟩

/-- **A text with too many digits** has a whole number in it that is too long. -/
theorem longNumber_of_scanAll {t : Text} (ht : t.IsUnicode)
    (h : scanAll t = .error (.tooManyDigits, r)) : r <:+ t ∧ LongNumber r := by
  rw [scanAll] at h
  split at h
  · cases h
  cases hscan : scan (2 * t.length + 2) (skip t) with
  | error e =>
    rw [hscan] at h
    obtain rfl := Except.error.inj h
    obtain ⟨hsuffix, hlong⟩ := (readers_meet _).1 _ _ (ht.of_suffix (suffix_skip t)) hscan
    exact ⟨hsuffix.trans (suffix_skip t), hlong⟩
  | ok found =>
    rw [hscan] at h
    dsimp only at h
    split at h
    · cases h
    · cases h

/-- **A text of digits** of which there are too many is such a number. -/
theorem scanAll_of_digits {c : CodePoint} {digits : Text} (hc : c.isDigit = true) (hlead : c ≠ '0')
    (hdigits : ∀ d ∈ digits, d.isDigit = true) (hlong : maxDigits < (c :: digits).length) :
    scanAll (c :: digits) = .error (.tooManyDigits, c :: digits) := by
  have hbounds : 48 ≤ c.val ∧ c.val ≤ 57 := by
    simpa [CodePoint.isDigit, CodePoint.within] using hc
  have hne : ∀ d : CodePoint, d.isDigit = false → c ≠ d := by
    rintro d hd rfl
    rw [hc] at hd
    cases hd
  have hspan : spanDigits (c :: digits) = (c :: digits, []) := by
    have h : spanDigits (c :: digits ++ []) = (c :: digits, []) :=
      spanDigits_append (List.forall_mem_cons.2 ⟨hc, hdigits⟩) (by rintro _ ⟨⟩)
    rwa [List.append_nil] at h
  have hnumber : scanNumber (c :: digits) = .error (.tooManyDigits, c :: digits) := by
    have hsign : Text.beginsWith (c :: digits) '-' = false := by
      simpa [Text.beginsWith] using hne '-' rfl
    simp only [scanNumber, hsign, Bool.false_eq_true, if_false, if_neg hlead, hc, if_true, hspan]
    simp only [scanNumberFrom, scanFraction, scanExponent, Option.getD_none, Option.isSome_none,
      Bool.or_self, Bool.false_eq_true, if_false, if_pos hlong]
  have hspace : isSpace c = false := by
    simp [isSpace, hne ' ' rfl, hne '\t' rfl, hne '\n' rfl, hne '\r' rfl]
  have hmark : (c :: digits).head?.any (·.val = 0xFEFF) = false := by
    simp only [List.head?_cons, Option.any_some, decide_eq_false_iff_not]
    omega
  have hskip : skip (c :: digits) = c :: digits := by
    rw [skip, List.dropWhile_cons_of_neg (by rw [hspace]; exact Bool.false_ne_true)]
  have hscan : scan (2 * (c :: digits).length + 2) (c :: digits) =
      .error (.tooManyDigits, c :: digits) := by
    rw [scan_scalar (hne _ rfl) (hne _ rfl) (hne _ rfl), ← hnumber]
    exact scanScalar_of_isDigit hc [] digits (Nat.zero_le 1)
  rw [scanAll, hmark, hskip, hscan]
  rfl

end Json

end BuildLint

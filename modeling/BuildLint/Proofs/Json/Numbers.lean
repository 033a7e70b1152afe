import BuildLint.Json.Writer
import BuildLint.Proofs.Json.Parts
import Mathlib.Data.List.TakeDrop

/-!
# Proofs/Json/Numbers — whole numbers come back as they were written

* `scanScalar_ofInt` — a whole number that is not too long is read back.
* `scanScalar_spellable` — a number that is read is not too long.
-/

namespace BuildLint

namespace Decimal

theorem ofNat_zero : ofNat 0 = [CodePoint.ofChar '0'] := by decide

/-- The digits of a positive number begin with no zero. -/
theorem head?_ofNat_ne_zero {n : Nat} (h : 0 < n) :
    (ofNat n).head? ≠ some (CodePoint.ofChar '0') := by
  induction n using Nat.strongRecOn with
  | ind n ih =>
    rw [ofNat, Nat.toDigits_eq_if (by decide)]
    split
    · rename_i hn
      have hsmall : ∀ k < 10, 0 < k →
          CodePoint.ofChar (Nat.digitChar k) ≠ CodePoint.ofChar '0' := by decide
      exact fun heq => hsmall n hn h (Option.some.inj heq)
    · rename_i hn
      have hdiv : 0 < n / 10 := Nat.div_pos (Nat.not_lt.1 hn) (by decide)
      rw [List.map_append, ← ofNat, List.head?_append_of_ne_nil _ (ofNat_ne_nil (n / 10))]
      exact ih (n / 10) (Nat.div_lt_self h (by decide)) hdiv

/-- An integer begins with a digit or a minus sign, so with nothing else. -/
theorem exists_ofInt_eq_cons (n : Int) : ∃ c r, ofInt n = c :: r ∧
    ∀ d : CodePoint, d.isDigit = false → d ≠ '-' → c ≠ d := by
  rw [ofInt]
  split
  · exact ⟨_, _, rfl, fun d _ hd => hd.symm⟩
  · obtain ⟨c, r, hc⟩ := List.exists_cons_of_ne_nil (ofNat_ne_nil n.natAbs)
    have hdigit : c.isDigit = true := isDigit_of_mem_ofNat (hc ▸ List.mem_cons_self)
    refine ⟨c, r, hc, ?_⟩
    rintro d hd - rfl
    rw [hdigit] at hd
    cases hd

/-- So many digits stand for no more than that power of ten. -/
theorem value_lt {digits : Text} (h : ∀ c ∈ digits, c.isDigit = true) :
    value digits < Nat.pow 10 digits.length := by
  suffices hfrom : ∀ n, digits.foldl (fun n c => 10 * n + (c.val - 48)) n <
      (n + 1) * Nat.pow 10 digits.length by
    rw [value, ← Nat.one_mul (Nat.pow 10 digits.length)]
    exact hfrom 0
  induction digits with
  | nil =>
    intro n
    exact Nat.lt_of_lt_of_eq (Nat.lt_succ_self n) (Nat.mul_one _).symm
  | cons c digits ih =>
    intro n
    have hc : c.val ≤ 57 := by
      have hdigit := h c List.mem_cons_self
      exact of_decide_eq_true ((Bool.and_eq_true _ _).mp hdigit).2
    have hrest := ih (fun d hd => h d (List.mem_cons_of_mem c hd)) (10 * n + (c.val - 48))
    have hstep : 10 * n + (c.val - 48) + 1 ≤ (n + 1) * 10 := by omega
    have hpow : Nat.pow 10 (digits.length + 1) = 10 * Nat.pow 10 digits.length :=
      Nat.mul_comm (Nat.pow 10 digits.length) 10
    rw [List.foldl_cons, List.length_cons, hpow, ← Nat.mul_assoc]
    exact hrest.trans_le (Nat.mul_le_mul_right _ hstep)

/-- **No digits are shorter** than the ones that are written. -/
theorem length_ofNat_value_le {digits : Text} (hne : digits ≠ [])
    (h : ∀ c ∈ digits, c.isDigit = true) : (ofNat (value digits)).length ≤ digits.length := by
  rw [ofNat, List.length_map]
  exact (Nat.length_toDigits_le_iff (by decide) (List.length_pos_of_ne_nil hne)).2 (value_lt h)

end Decimal

namespace Json

variable {start s rest : Text} {negative : Bool} {whole : Text}

/-- What follows a value inside another: white space, a comma, or what closes the other. -/
def Ends (rest : Text) : Prop :=
  ∀ c ∈ rest.head?, isSpace c = true ∨ c = ',' ∨ c = ']' ∨ c = '\x7d'

theorem isDigit_of_isSpace {c : CodePoint} (h : isSpace c = true) : c.isDigit = false := by
  simp only [isSpace, Bool.or_eq_true, decide_eq_true_eq] at h
  rcases h with ((rfl | rfl) | rfl) | rfl <;> rfl

/-! ## Reading what is written -/

theorem spanDigits_append {digits : Text} (hdigits : ∀ c ∈ digits, c.isDigit = true)
    (hrest : Ends rest) : spanDigits (digits ++ rest) = (digits, rest) := by
  have hnone : rest.takeWhile CodePoint.isDigit = [] ∧ rest.dropWhile CodePoint.isDigit = rest := by
    cases rest with
    | nil => exact ⟨rfl, rfl⟩
    | cons c rest =>
      have hc : c.isDigit = false := by
        rcases hrest c rfl with hspace | rfl | rfl | rfl
        · exact isDigit_of_isSpace hspace
        all_goals rfl
      rw [List.takeWhile_cons, List.dropWhile_cons, hc]
      exact ⟨rfl, rfl⟩
  rw [spanDigits, List.span_eq_takeWhile_dropWhile, List.takeWhile_append_of_pos hdigits,
    List.dropWhile_append_of_pos hdigits, hnone.1, hnone.2, List.append_nil]

/-- Without fraction and exponent a number is a whole one. -/
theorem scanNumberFrom_of_ends (hrest : Ends rest) (hlen : whole.length ≤ maxDigits) :
    scanNumberFrom start negative whole rest =
      .ok (.int (if negative then -(Decimal.value whole : Int) else Decimal.value whole),
        rest) := by
  have hfraction : scanFraction rest = none := by
    cases rest with
    | nil => rfl
    | cons c rest =>
      refine if_neg fun h => ?_
      obtain rfl := h.1
      exact absurd (hrest _ rfl) (by decide)
  have hexponent : scanExponent rest = none := by
    cases rest with
    | nil => rfl
    | cons c rest =>
      refine if_neg fun h => ?_
      rcases h.1 with rfl | rfl <;> exact absurd (hrest _ rfl) (by decide)
  simp only [scanNumberFrom, hfraction, hexponent, Option.getD_none, Option.isSome_none,
    Bool.or_self, Bool.false_eq_true, if_false, if_neg (Nat.not_lt.2 hlen)]

/-- **The digits that are written** are the whole number. -/
theorem scanNumber_of_unsigned {m : Nat}
    (hs : (if s.beginsWith '-' then s.drop 1 else s) = Decimal.ofNat m ++ rest)
    (hm : (Decimal.ofNat m).length ≤ maxDigits) (hrest : Ends rest) :
    scanNumber s = .ok (.int (if s.beginsWith '-' then -(m : Int) else m), rest) := by
  have hvalue := Decimal.value_ofNat m
  have hdigits := fun c => @Decimal.isDigit_of_mem_ofNat m c
  have hpositive := fun h => @Decimal.head?_ofNat_ne_zero m h
  rw [scanNumber]
  simp only [hs]
  by_cases hzero : m = 0
  · subst hzero
    rw [Decimal.ofNat_zero] at hvalue hm ⊢
    rw [List.cons_append, List.nil_append]
    simp only [if_true]
    rw [scanNumberFrom_of_ends hrest hm, hvalue]
  · obtain ⟨c, digits, hc⟩ := List.exists_cons_of_ne_nil (Decimal.ofNat_ne_nil m)
    have hlead := hpositive (Nat.pos_of_ne_zero hzero)
    rw [hc] at hvalue hm hdigits hlead ⊢
    have hne : c ≠ '0' := fun h => hlead (congrArg some h)
    rw [List.cons_append]
    simp only [if_neg hne, hdigits c List.mem_cons_self, if_true]
    rw [← List.cons_append, spanDigits_append hdigits hrest, scanNumberFrom_of_ends hrest hm,
      hvalue]

/-- Names that stand for values begin with two code points that are no digits. -/
theorem exists_of_mem_literals {l : Text × Json} (h : l ∈ literals) :
    ∃ a b name, l.1 = a :: b :: name ∧ a.isDigit = false ∧ b.isDigit = false := by
  simp only [literals, List.mem_cons, List.not_mem_nil, or_false] at h
  rcases h with rfl | rfl | rfl | rfl | rfl | rfl
  all_goals exact ⟨_, _, _, rfl, rfl, rfl⟩

/-- What has a digit in one of its first two places is a number. -/
theorem scanScalar_of_isDigit {d : CodePoint} (hd : d.isDigit = true) (before rest : Text)
    (hbefore : before.length ≤ 1) :
    scanScalar (before ++ d :: rest) = scanNumber (before ++ d :: rest) := by
  have hnone : (literals.find? fun l => Text.startsWith (before ++ d :: rest) l.1) = none := by
    refine List.find?_eq_none.2 fun l hl hstarts => ?_
    obtain ⟨a, b, name, hname, ha, hb⟩ := exists_of_mem_literals hl
    rw [hname, Text.startsWith, List.isPrefixOf_iff_prefix] at hstarts
    obtain ⟨t, ht⟩ := hstarts
    match before, hbefore with
    | [], _ =>
      obtain rfl : a = d := (List.cons.inj ht).1
      rw [ha] at hd
      cases hd
    | [c], _ =>
      obtain rfl : b = d := (List.cons.inj (List.cons.inj ht).2).1
      rw [hb] at hd
      cases hd
  rw [scanScalar, hnone]

/-- **A written whole number is read back.** -/
theorem scanScalar_ofInt {n : Int} (hn : (Decimal.ofNat n.natAbs).length ≤ maxDigits)
    (hrest : Ends rest) : scanScalar (Decimal.ofInt n ++ rest) = .ok (.int n, rest) := by
  obtain ⟨d, digits, hd⟩ := List.exists_cons_of_ne_nil (Decimal.ofNat_ne_nil n.natAbs)
  have hdigit : d.isDigit = true := Decimal.isDigit_of_mem_ofNat (hd ▸ List.mem_cons_self)
  rw [Decimal.ofInt]
  split
  · rename_i hneg
    have hscalar := scanScalar_of_isDigit hdigit [CodePoint.ofChar '-'] (digits ++ rest) (by decide)
    rw [List.cons_append, List.nil_append, ← List.cons_append, ← hd] at hscalar
    rw [List.cons_append, hscalar, scanNumber_of_unsigned rfl hn hrest]
    have hvalue : -(n.natAbs : Int) = n := by omega
    exact congrArg (fun k => Except.ok (Json.int k, rest)) hvalue
  · rename_i hneg
    have hscalar := scanScalar_of_isDigit hdigit [] (digits ++ rest) (by decide)
    rw [List.nil_append, ← List.cons_append, ← hd] at hscalar
    have hsign : (Decimal.ofNat n.natAbs ++ rest).beginsWith '-' = false := by
      rw [hd, List.cons_append, Text.beginsWith, List.head?_cons]
      refine beq_eq_false_iff_ne.2 fun h => ?_
      obtain rfl : d = CodePoint.ofChar '-' := Option.some.inj h
      cases hdigit
    have hunsigned : (if (Decimal.ofNat n.natAbs ++ rest).beginsWith '-' then
        (Decimal.ofNat n.natAbs ++ rest).drop 1 else Decimal.ofNat n.natAbs ++ rest) =
        Decimal.ofNat n.natAbs ++ rest := if_neg (by simp [hsign])
    rw [hscalar, scanNumber_of_unsigned hunsigned hn hrest, hsign]
    have hvalue : (n.natAbs : Int) = n := by omega
    exact congrArg (fun k => Except.ok (Json.int k, rest)) hvalue

/-! ## What reading gives -/

theorem suffix_spanDigits (t : Text) : (spanDigits t).2 <:+ t := by
  rw [spanDigits, List.span_eq_takeWhile_dropWhile]
  exact List.dropWhile_suffix _

theorem suffix_of_scanFraction {f : Text × Text} (h : scanFraction s = some f) : f.2 <:+ s := by
  cases s with
  | nil => cases h
  | cons c s =>
    simp only [scanFraction] at h
    split at h
    · obtain rfl := Option.some.inj h
      exact (suffix_spanDigits s).trans (List.suffix_cons c s)
    · cases h

theorem suffix_of_scanExponent {e : Int × Text} (h : scanExponent s = some e) : e.2 <:+ s := by
  cases s with
  | nil => cases h
  | cons c s =>
    have hunsigned : (if Text.beginsWith s '-' || Text.beginsWith s '+' then s.drop 1 else s) <:+
        s := by
      split
      · exact List.drop_suffix 1 s
      · exact List.suffix_refl s
    simp only [scanExponent] at h
    generalize (if Text.beginsWith s '-' || Text.beginsWith s '+' then s.drop 1 else s) = u
      at h hunsigned
    split at h
    · obtain rfl := Option.some.inj h
      exact (suffix_spanDigits u).trans (hunsigned.trans (List.suffix_cons c s))
    · cases h

/-- A number whose whole part is known: what follows it, and how long it is. -/
theorem scanNumberFrom_spellable {v : Json} {r : Text} (hne : whole ≠ [])
    (hdigits : ∀ c ∈ whole, c.isDigit = true)
    (h : scanNumberFrom start negative whole rest = .ok (v, r)) : r <:+ rest ∧ v.IsSpellable := by
  have hfraction : ((scanFraction rest).getD ([], rest)).2 <:+ rest := by
    cases hf : scanFraction rest with
    | none => exact List.suffix_refl rest
    | some f => exact suffix_of_scanFraction hf
  have hexponent : ∀ t, ((scanExponent t).getD (0, t)).2 <:+ t := fun t => by
    cases he : scanExponent t with
    | none => exact List.suffix_refl t
    | some e => exact suffix_of_scanExponent he
  have hsuffix := (hexponent ((scanFraction rest).getD ([], rest)).2).trans hfraction
  simp only [scanNumberFrom] at h
  split at h
  · obtain ⟨rfl, rfl⟩ := Prod.mk.inj (Except.ok.inj h)
    exact ⟨hsuffix, .float _⟩
  · split at h
    · cases h
    · obtain ⟨rfl, rfl⟩ := Prod.mk.inj (Except.ok.inj h)
      refine ⟨hsuffix, .int ?_⟩
      have hvalue : Int.natAbs (if negative then -(Decimal.value whole : Int)
          else Decimal.value whole) = Decimal.value whole := by
        cases negative
        · exact Int.natAbs_natCast _
        · exact (Int.natAbs_neg _).trans (Int.natAbs_natCast _)
      rw [hvalue]
      exact (Decimal.length_ofNat_value_le hne hdigits).trans (Nat.not_lt.1 ‹_›)

/-- **A number that is read** is not too long. -/
theorem scanNumber_spellable {v : Json} {r : Text} (h : scanNumber s = .ok (v, r)) :
    r <:+ s ∧ v.IsSpellable := by
  have hunsigned : (if s.beginsWith '-' then s.drop 1 else s) <:+ s := by
    split
    · exact List.drop_suffix 1 s
    · exact List.suffix_refl s
  rw [scanNumber] at h
  dsimp only at h
  cases hs : (if s.beginsWith '-' then s.drop 1 else s) with
  | nil =>
    rw [hs] at h
    cases h
  | cons c t =>
    rw [hs] at h hunsigned
    dsimp only at h
    split at h
    · obtain ⟨hsuffix, hv⟩ := scanNumberFrom_spellable (List.cons_ne_nil c [])
        (by rintro d hd; rw [List.mem_singleton.1 hd, ‹c = _›]; rfl) h
      exact ⟨hsuffix.trans ((List.suffix_cons c t).trans hunsigned), hv⟩
    · split at h
      · have hc : c.isDigit = true := ‹_›
        have hspan : spanDigits (c :: t) = (c :: t.takeWhile CodePoint.isDigit,
            t.dropWhile CodePoint.isDigit) := by
          rw [spanDigits, List.span_eq_takeWhile_dropWhile, List.takeWhile_cons_of_pos hc,
            List.dropWhile_cons_of_pos hc]
        rw [hspan] at h
        have hdigits : ∀ d ∈ c :: t.takeWhile CodePoint.isDigit, d.isDigit = true :=
          List.forall_mem_cons.2 ⟨hc, List.all_eq_true.1 List.all_takeWhile⟩
        obtain ⟨hsuffix, hv⟩ := scanNumberFrom_spellable (List.cons_ne_nil _ _) hdigits h
        exact ⟨hsuffix.trans ((List.dropWhile_suffix _).trans
          ((List.suffix_cons c t).trans hunsigned)), hv⟩
      · cases h

/-- Names stand for values that a text can spell. -/
theorem isSpellable_of_mem_literals {l : Text × Json} (h : l ∈ literals) : l.2.IsSpellable := by
  simp only [literals, List.mem_cons, List.not_mem_nil, or_false] at h
  rcases h with rfl | rfl | rfl | rfl | rfl | rfl
  · exact .null
  · exact .bool true
  · exact .bool false
  all_goals exact .float _

/-- **A value without parts** that is read. -/
theorem scanScalar_spellable {v : Json} {r : Text} (h : scanScalar s = .ok (v, r)) :
    r <:+ s ∧ v.IsSpellable := by
  rw [scanScalar] at h
  split at h
  · rename_i name value hfind
    obtain ⟨rfl, rfl⟩ := Prod.mk.inj (Except.ok.inj h)
    exact ⟨List.drop_suffix _ s, isSpellable_of_mem_literals (List.mem_of_find?_eq_some hfind)⟩
  · exact scanNumber_spellable h

end Json

end BuildLint

import BuildLint.CMake.Version
import BuildLint.Numeral.Decimal
import BuildLint.Proofs.Text.Cutting
import BuildLint.Proofs.Text.Unicode
import Mathlib.Data.List.TakeWhile
import Mathlib.Order.PiLex

/-!
# Proofs/CMake/VersionOrder — versions compared place by place

Versions are compared as lists of numbers, and a list that another one continues comes before it.
Compared as sequences, with a zero at every place that is missing, such a version may be as new as
the other.  The two ways to compare agree if the version that is asked for does not end in zero.

* `Precedes` — the order of sequences; it is lexicographic, so `not_precedes_trans`.
* `numbers?_of_isPlain` — the numbers of a version are the values of its components.
* `isOlder_iff` — the lists compare as the sequences do.
* `check_compares` — which versions are refused.
-/

namespace BuildLint

namespace Version

variable {version minimum component : Text} {c : CodePoint} {as bs : List Nat}

/-! ## Sequences of numbers -/

/-- The numbers of a list, and zero at every place that is missing. -/
def padded (numbers : List Nat) (i : Nat) : Nat := numbers[i]?.getD 0

/-- **A sequence precedes another** if it has the lesser number at the first place where they
differ. -/
def Precedes (a b : Nat → Nat) : Prop := ∃ i, (∀ j < i, a j = b j) ∧ a i < b i

/-- Sequences come in lexicographic order, which is linear. -/
theorem not_precedes_trans {a b c : Nat → Nat} (hab : ¬Precedes a b) (hca : ¬Precedes c a) :
    ¬Precedes c b := by
  have hba : toLex b ≤ toLex a := not_lt.1 hab
  have hac : toLex a ≤ toLex c := not_lt.1 hca
  exact not_lt.2 (hba.trans hac)

/-- The first numbers decide, unless they are the same. -/
theorem precedes_iff (a b : Nat → Nat) :
    Precedes a b ↔ a 0 < b 0 ∨ a 0 = b 0 ∧ Precedes (fun i => a (i + 1)) fun i => b (i + 1) := by
  constructor
  · rintro ⟨_ | i, hbefore, hlt⟩
    · exact .inl hlt
    · exact .inr ⟨hbefore 0 i.succ_pos, i, fun j hj => hbefore (j + 1) (Nat.succ_lt_succ hj), hlt⟩
  · rintro (hlt | ⟨heq, i, hbefore, hlt⟩)
    · exact ⟨0, fun j hj => absurd hj (Nat.not_lt_zero j), hlt⟩
    · refine ⟨i + 1, fun j hj => ?_, hlt⟩
      cases j with
      | zero => exact heq
      | succ j => exact hbefore j (Nat.lt_of_succ_lt_succ hj)

/-- Nothing but zeros precedes a list that does not end in zero. -/
theorem precedes_of_getLast?_ne_zero (hne : bs ≠ []) (hlast : bs.getLast? ≠ some 0) :
    Precedes (padded []) (padded bs) := by
  induction bs with
  | nil => exact absurd rfl hne
  | cons b bs ih =>
    rw [precedes_iff]
    -- a zero at the front decides nothing, and does not stand at the end
    rcases Nat.eq_zero_or_pos b with rfl | hb
    · have hne' : bs ≠ [] := by
        rintro rfl
        exact hlast rfl
      refine .inr ⟨rfl, ih hne' ?_⟩
      rwa [List.getLast?_cons_of_ne_nil hne'] at hlast
    · exact .inl hb

/-- **Lists compare as sequences do**, if the second one does not end in zero. -/
theorem isOlder_iff (hlast : bs.getLast? ≠ some 0) :
    isOlder as bs = true ↔ Precedes (padded as) (padded bs) := by
  induction bs generalizing as with
  | nil =>
    have hleast : ¬Precedes (padded as) (padded []) := fun ⟨_, _, hlt⟩ => Nat.not_lt_zero _ hlt
    cases as <;> exact iff_of_false Bool.false_ne_true hleast
  | cons b bs ih =>
    cases as with
    | nil => exact iff_of_true rfl (precedes_of_getLast?_ne_zero (List.cons_ne_nil b bs) hlast)
    | cons a as =>
      have hlast' : bs.getLast? ≠ some 0 := by
        cases bs with
        | nil => exact Option.some_ne_none 0 ∘ Eq.symm
        | cons d ds => rwa [List.getLast?_cons_cons] at hlast
      rw [isOlder, precedes_iff, Bool.or_eq_true, Bool.and_eq_true, decide_eq_true_eq, beq_iff_eq,
        ih hlast']
      exact Iff.rfl

/-- A list that ends in zero is reached only by one that is as long. -/
example : isOlder [3] [3, 0] = true := rfl

/-! ## The numbers of a version -/

/-- **The value of a component**: the number that its leading digits stand for, zero if it begins
with none. -/
def valueOf (component : Text) : Nat := Decimal.value (component.takeWhile CodePoint.isDigit)

/-- **The values of a version**, component by component, and zero at every place that is missing. -/
def values (version : Text) : Nat → Nat := padded ((version.splitOn ".").map valueOf)

/-- **A plain version**: ASCII, and no component begins with more digits than can be read. -/
structure IsPlain (version : Text) : Prop where
  ascii : ∀ c ∈ version, c.val < 0x80
  short : ∀ component ∈ version.splitOn ".",
    (component.takeWhile CodePoint.isDigit).length ≤ 4300

theorem isDigit_iff : c.isDigit = true ↔ 48 ≤ c.val ∧ c.val ≤ 57 := by
  rw [CodePoint.isDigit, CodePoint.within, Bool.and_eq_true, decide_eq_true_eq, decide_eq_true_eq]
  exact Iff.rfl

/-- In ASCII the decimal digits are those from zero to nine. -/
theorem digitValue?_of_ascii (h : c.val < 0x80) :
    c.digitValue? = if c.isDigit then some (c.val - 48) else none := by
  have hothers : (Digit.zeros.tail.find? fun start => start ≤ c.val && c.val < start + 10) =
      none := by
    have habove : ∀ start ∈ Digit.zeros.tail, 0x80 ≤ start := by decide
    refine List.find?_eq_none.2 fun start hstart => ?_
    have := habove start hstart
    simp only [Bool.and_eq_true, decide_eq_true_eq]
    omega
  have hzeros : Digit.zeros = 48 :: Digit.zeros.tail := rfl
  rw [CodePoint.digitValue?, hzeros, List.find?_cons, hothers]
  have hdigit : c.isDigit = (48 ≤ c.val && c.val < 48 + 10) := by
    rw [Bool.eq_iff_iff, isDigit_iff, Bool.and_eq_true, decide_eq_true_eq, decide_eq_true_eq]
    omega
  rw [hdigit]
  cases (decide (48 ≤ c.val) && decide (c.val < 48 + 10)) <;> rfl

/-- In ASCII every digit sign is a decimal digit. -/
theorem isDigitSign_of_ascii (h : c.val < 0x80) : c.isDigitSign = c.isDigit := by
  have habove : ∀ range ∈ Digit.otherSigns, 0x80 ≤ range.1 := by decide
  have hothers : ∀ range ∈ Digit.otherSigns,
      ¬(range.1 ≤ c.val && c.val ≤ range.2) = true := by
    intro range hrange
    have := habove range hrange
    simp only [Bool.and_eq_true, decide_eq_true_eq]
    omega
  rw [CodePoint.isDigitSign, List.any_eq_false.2 hothers, digitValue?_of_ascii h]
  cases c.isDigit <;> rfl

theorem leadingDigits_of_ascii (h : ∀ c ∈ component, c.val < 0x80) :
    leadingDigits component = component.takeWhile CodePoint.isDigit := by
  rw [leadingDigits]
  induction component with
  | nil => rfl
  | cons c rest ih =>
    obtain ⟨hc, hrest⟩ := List.forall_mem_cons.1 h
    rw [List.takeWhile_cons, List.takeWhile_cons, isDigitSign_of_ascii hc, ih hrest]

/-- The same step on every element succeeds with what it gives on each. -/
theorem mapM_eq_some_map {α β : Type} {f : α → Option β} {g : α → β} {xs : List α}
    (h : ∀ x ∈ xs, f x = some (g x)) : xs.mapM f = some (xs.map g) := by
  induction xs with
  | nil => rfl
  | cons x xs ih =>
    obtain ⟨hx, hxs⟩ := List.forall_mem_cons.1 h
    rw [List.mapM_cons, hx, ih hxs]
    rfl

/-- **The number of a component** is its value. -/
theorem number?_eq_some (hascii : ∀ c ∈ component, c.val < 0x80)
    (hshort : (component.takeWhile CodePoint.isDigit).length ≤ maxDigits) :
    number? component = some (valueOf component) := by
  have hdigits : ∀ c ∈ component.takeWhile CodePoint.isDigit,
      c.digitValue? = some (c.val - 48) := by
    intro c hc
    rw [digitValue?_of_ascii (hascii c ((List.takeWhile_sublist _).subset hc)),
      if_pos (List.mem_takeWhile_imp hc)]
  simp only [number?, leadingDigits_of_ascii hascii]
  rw [if_neg (Nat.not_lt.2 hshort), mapM_eq_some_map hdigits, Option.map_some, List.foldl_map]
  rfl

/-- **The numbers of a plain version** are the values of its components. -/
theorem numbers?_of_isPlain (h : IsPlain version) :
    numbers? version = some ((version.splitOn ".").map valueOf) := by
  obtain ⟨hascii, hshort⟩ := h
  have hsplit : version.splitOn "." = version.cutWhere (· = '.') := Text.splitOn_singleton version
  rw [hsplit] at hshort ⊢
  refine mapM_eq_some_map fun component hmem => number?_eq_some (fun c hc => ?_) (hshort _ hmem)
  exact hascii c (Text.subset_of_mem_cutWhere hmem hc)

/-- A hyphen is no digit sign. -/
theorem leadingDigits_append_hyphen (component suffix : Text) :
    leadingDigits (component ++ ("-" ++ suffix)) = leadingDigits component := by
  have hhyphen : leadingDigits ("-" ++ suffix) = [] := by
    have hsign : ¬CodePoint.isDigitSign '-' = true := by decide
    change List.takeWhile _ (CodePoint.ofChar '-' :: suffix) = []
    exact List.takeWhile_cons_of_neg hsign
  rw [leadingDigits] at hhyphen
  rw [leadingDigits, leadingDigits, List.takeWhile_append, hhyphen, List.append_nil]
  split
  · exact ((List.takeWhile_prefix _).eq_of_length ‹_›).symm
  · rfl

/-- **What follows a hyphen** behind a version is ignored, unless a component begins there. -/
theorem numbers?_append_hyphen {suffix : Text} (h : ('.' : CodePoint) ∉ suffix) (version : Text) :
    numbers? (version ++ "-" ++ suffix) = numbers? version := by
  have hwhole : ∀ c ∈ (("-" : Text) ++ suffix), decide (c = ('.' : CodePoint)) = false := by
    refine List.forall_mem_cons.2 ⟨by decide, fun c hc => decide_eq_false ?_⟩
    rintro rfl
    exact h hc
  obtain ⟨before, last, hcut, hcut'⟩ := Text.exists_cutWhere_append hwhole version
  have hlast : number? (last ++ ("-" ++ suffix)) = number? last := by
    rw [number?, number?, leadingDigits_append_hyphen]
  rw [List.append_assoc, numbers?, numbers?, hcut, hcut', List.mapM_append, List.mapM_append,
    List.mapM_cons, List.mapM_cons, hlast]

/-! ## Which versions are refused -/

/-- **A version is older than another** if its values precede those of the other. -/
def IsOlder (version other : Text) : Prop := Precedes (values version) (values other)

/-- The last component of a version is worth nothing. -/
def EndsInZero (version : Text) : Prop := ((version.splitOn ".").map valueOf).getLast? = some 0

/-- Two plain versions can be compared, and the older one is refused. -/
theorem check_of_isPlain (hversion : IsPlain version) (hminimum : IsPlain minimum)
    (hlast : ¬EndsInZero minimum) :
    (IsOlder version minimum ∧
        check version minimum = .error (.failure (.metadata (.versionTooOld version minimum)))) ∨
      ¬IsOlder version minimum ∧ check version minimum = .ok () := by
  rw [check, numbers?_of_isPlain hversion, numbers?_of_isPlain hminimum]
  by_cases holder : IsOlder version minimum
  · exact .inl ⟨holder, if_pos ((isOlder_iff hlast).2 holder)⟩
  · exact .inr ⟨holder, if_neg (mt (isOlder_iff hlast).1 holder)⟩

theorem check_eq_error_iff (hversion : IsPlain version) (hminimum : IsPlain minimum)
    (hlast : ¬EndsInZero minimum) :
    check version minimum = .error (.failure (.metadata (.versionTooOld version minimum))) ↔
      IsOlder version minimum := by
  rcases check_of_isPlain hversion hminimum hlast with ⟨holder, hcheck⟩ | ⟨holder, hcheck⟩
  · exact iff_of_true hcheck holder
  · rw [hcheck]
    exact iff_of_false (fun h => nomatch h) holder

theorem check_eq_ok_iff (hversion : IsPlain version) (hminimum : IsPlain minimum)
    (hlast : ¬EndsInZero minimum) :
    check version minimum = .ok () ↔ ¬IsOlder version minimum := by
  rcases check_of_isPlain hversion hminimum hlast with ⟨holder, hcheck⟩ | ⟨holder, hcheck⟩
  · rw [hcheck]
    exact iff_of_false (fun h => nomatch h) (not_not_intro holder)
  · exact iff_of_true hcheck holder

/-- **What follows a hyphen** decides nothing but how a version is called. -/
theorem check_append_hyphen {suffix : Text} (h : ('.' : CodePoint) ∉ suffix)
    (version minimum : Text) :
    (check (version ++ "-" ++ suffix) minimum = .ok () ↔ check version minimum = .ok ()) ∧
      (check (version ++ "-" ++ suffix) minimum = .error (.failure (.metadata
          (.versionTooOld (version ++ "-" ++ suffix) minimum))) ↔
        check version minimum = .error (.failure (.metadata
          (.versionTooOld version minimum)))) := by
  rw [check, check, numbers?_append_hyphen h]
  cases numbers? version with
  | none => simp
  | some v =>
    cases numbers? minimum with
    | none => simp
    | some m => cases hisOlder : isOlder v m <;> simp [hisOlder]

/-- **A version is refused exactly if it is older than the minimum**, place by place and with zero
for what is missing, unless the minimum ends in zero.  So whatever is no older than a version that
will do will do as well; and what follows a hyphen behind a version makes no difference. -/
theorem check_compares (hminimum : IsPlain minimum) (hlast : ¬EndsInZero minimum) :
    (∀ version, IsPlain version →
      (check version minimum = .error (.failure (.metadata (.versionTooOld version minimum))) ↔
        IsOlder version minimum) ∧
      (check version minimum = .ok () ↔ ¬IsOlder version minimum)) ∧
    (∀ version other, IsPlain version → IsPlain other → check version minimum = .ok () →
      ¬IsOlder other version → check other minimum = .ok ()) ∧
    ∀ version suffix : Text, ('.' : CodePoint) ∉ suffix →
      (check (version ++ "-" ++ suffix) minimum = .ok () ↔ check version minimum = .ok ()) ∧
      (check (version ++ "-" ++ suffix) minimum = .error (.failure (.metadata
          (.versionTooOld (version ++ "-" ++ suffix) minimum))) ↔
        check version minimum = .error (.failure (.metadata
          (.versionTooOld version minimum)))) := by
  refine ⟨fun version hversion => ?_, fun version other hversion hother hcheck hnewer => ?_,
    fun version suffix hsuffix => check_append_hyphen hsuffix version minimum⟩
  · exact ⟨check_eq_error_iff hversion hminimum hlast, check_eq_ok_iff hversion hminimum hlast⟩
  · rw [check_eq_ok_iff hversion hminimum hlast] at hcheck
    rw [check_eq_ok_iff hother hminimum hlast]
    exact not_precedes_trans hcheck hnewer

/-- Some plain versions, the built-in minimum among them. -/
theorem isPlain_of_mem {version : Text}
    (h : version ∈ ([Version.minimum, "3.9.12", "03.20.10", "4"] : List Text)) :
    IsPlain version := by
  have hall : ∀ version ∈ ([Version.minimum, "3.9.12", "03.20.10", "4"] : List Text),
      (∀ c ∈ version, c.val < 0x80) ∧ ∀ component ∈ version.splitOn ".",
        (component.takeWhile CodePoint.isDigit).length ≤ 4300 := by decide
  exact ⟨(hall version h).1, (hall version h).2⟩

/-- A version is no text, and no list of fewer numbers is older for that. -/
theorem check_compares_builtIn :
    check "3.9.12" Version.minimum =
        .error (.failure (.metadata (.versionTooOld "3.9.12" Version.minimum))) ∧
      check "03.20.10-rc1" Version.minimum = .ok () ∧ check "4" Version.minimum = .ok () := by
  have hlast : ¬EndsInZero Version.minimum := by
    rw [EndsInZero]
    decide
  obtain ⟨hcompare, hnewer, hsuffix⟩ := check_compares (isPlain_of_mem (by simp)) hlast
  have hold : IsOlder "3.9.12" Version.minimum := ⟨1, by decide, by decide⟩
  have hfour : ¬IsOlder "4" "03.20.10" := by
    rintro ⟨_ | i, hbefore, hlt⟩
    · exact absurd hlt (by decide)
    · exact absurd (hbefore 0 i.succ_pos) (by decide)
  have hdoes : check "03.20.10" Version.minimum = .ok () := rfl
  refine ⟨(hcompare _ (isPlain_of_mem (by simp))).1.2 hold,
    (hsuffix "03.20.10" "rc1" (by decide)).1.2 hdoes, ?_⟩
  exact hnewer "03.20.10" _ (isPlain_of_mem (by simp)) (isPlain_of_mem (by simp)) hdoes hfour

end Version

end BuildLint

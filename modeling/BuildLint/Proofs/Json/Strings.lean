import BuildLint.Json.Reader
import BuildLint.Json.Writer
import BuildLint.Proofs.Text.CodePoints

/-!
# Proofs/Json/Strings — strings come back as they were written

A written string spells every code point that is not printable ASCII by its UTF-16 units, and a
reader joins two units to one code point wherever they form a surrogate pair.  So a string comes
back exactly if it holds no such pair itself, and no string that was read from a JSON text does:
there the halves of a pair can only be written as units.

* `scanString_writePoints` — a string without pairs is read back.
* `unpaired_of_scanString` — a string that is read from Unicode characters has none.
-/

namespace BuildLint

namespace Json

/-! ## Units -/

theorem hexValue?_hexDigit (n : Nat) : hexValue? (Text.hexDigit n) = some (n % 16) := by
  have h : ∀ k < 16, hexValue? (Nat.digitChar k : Char) = some k := by decide
  exact h (n % 16) (Nat.mod_lt n (by decide))

/-- A unit, digit by digit. -/
theorem writeUnit_append (n : Nat) (t : Text) :
    writeUnit n ++ t = CodePoint.ofChar '\\' :: CodePoint.ofChar 'u' ::
      Text.hexDigit (n / 4096) :: Text.hexDigit (n / 256) :: Text.hexDigit (n / 16) ::
        Text.hexDigit n :: t := by
  simp only [writeUnit, Text.hex, List.nil_append, List.append_assoc, Nat.div_div_eq_div_mul]
  rfl

/-- The digits of a unit name it. -/
theorem unit?_hexDigit {u : CodePoint} (h : u.val < 0x10000) :
    unit? (Text.hexDigit (u.val / 4096)) (Text.hexDigit (u.val / 256))
      (Text.hexDigit (u.val / 16)) (Text.hexDigit u.val) = some u := by
  have hsum : u.val / 4096 % 16 * 4096 + u.val / 256 % 16 * 256 + u.val / 16 % 16 * 16 +
      u.val % 16 = u.val := by omega
  simp only [unit?, hexValue?_hexDigit]
  change CodePoint.ofNat? _ = _
  rw [hsum, CodePoint.ofNat?_val]

/-- A written unit is a second half exactly if it is one, as long as something follows. -/
theorem lowHalf?_writeUnit {u : CodePoint} (h : u.val < 0x10000) {t : Text} (ht : t ≠ []) :
    lowHalf? (writeUnit u.val ++ t) = (some u).filter CodePoint.isLowSurrogate := by
  obtain ⟨c, t, rfl⟩ := List.exists_cons_of_ne_nil ht
  rw [writeUnit_append, lowHalf?.eq_1, if_pos ⟨rfl, rfl⟩, unit?_hexDigit h]

/-- The two units of a code point form its pair. -/
theorem pair?_halves {c : CodePoint} (hc : 0x10000 ≤ c.val) :
    pair? c.highHalf c.lowHalf = some c := by
  have hsum : 0x10000 + (c.highHalf.val - 0xD800) * 0x400 + (c.lowHalf.val - 0xDC00) = c.val := by
    simp only [CodePoint.highHalf, CodePoint.lowHalf]
    omega
  rw [pair?, c.isHighSurrogate_highHalf, c.isLowSurrogate_lowHalf, hsum]
  exact CodePoint.ofNat?_val c

/-! ## One step of reading -/

variable {opening t : Text} {high : Option CodePoint} {c e p u : CodePoint}

/-- A unit is kept for the pair that it begins, or put in front of the rest. -/
theorem scanString_unit {a b x d : CodePoint} (hu : unit? a b x d = some u) (ht : t ≠ []) :
    scanString opening high (CodePoint.ofChar '\\' :: CodePoint.ofChar 'u' :: a :: b :: x ::
        d :: t) =
      if u.isHighSurrogate && (lowHalf? t).isSome then scanString opening (some u) t
      else consPoint ((high.bind (pair? · u)).getD u) (scanString opening none t) := by
  rw [scanString.eq_5 _ _ _ _ _ _ _ _ _ _ ht hu, if_neg (by decide), if_pos rfl, if_pos rfl]

/-- A one-letter escape. -/
theorem scanString_escape (he : e ≠ 'u') (hp : escaped? e = some p) :
    scanString opening high (CodePoint.ofChar '\\' :: e :: t) =
      consPoint p (scanString opening none t) := by
  rw [scanString.eq_def]
  simp only [he, hp, if_true, if_false]
  rw [if_neg (by decide)]

/-- A code point that stands for itself. -/
theorem scanString_self (hq : c ≠ '"') (hb : c ≠ '\\') (hc : 0x20 ≤ c.val) :
    scanString opening high (c :: t) = consPoint c (scanString opening none t) := by
  rw [scanString.eq_def]
  simp only [hq, hb, if_false, if_neg (Nat.not_lt.2 hc)]

/-! ## Writing and reading -/

/-- **A written unit is read.** -/
theorem scanString_writeUnit (hu : u.val < 0x10000) (ht : t ≠ []) :
    scanString opening high (writeUnit u.val ++ t) =
      if u.isHighSurrogate && (lowHalf? t).isSome then scanString opening (some u) t
      else consPoint ((high.bind (pair? · u)).getD u) (scanString opening none t) := by
  rw [writeUnit_append]
  exact scanString_unit (unit?_hexDigit hu) ht

theorem writeUnits_halves (c : CodePoint) : writeUnit (0xD800 + (c.val - 0x10000) / 0x400) ++
      writeUnit (0xDC00 + (c.val - 0x10000) % 0x400) =
    writeUnit c.highHalf.val ++ writeUnit c.lowHalf.val := rfl

/-- The two units of a pair are read as one code point. -/
theorem scanString_halves (hc : 0x10000 ≤ c.val) (ht : t ≠ []) :
    scanString opening none (writeUnit c.highHalf.val ++ (writeUnit c.lowHalf.val ++ t)) =
      consPoint c (scanString opening none t) := by
  have hlow : c.lowHalf.val < 0x10000 := c.lowHalf_bounds.2.trans (by decide)
  have hhigh : c.highHalf.val < 0x10000 := c.highHalf_bounds.2.trans (by decide)
  have hne : writeUnit c.lowHalf.val ++ t ≠ [] := by simp [writeUnit_append]
  rw [scanString_writeUnit hhigh hne, lowHalf?_writeUnit hlow ht, Option.filter_some,
    if_pos c.isLowSurrogate_lowHalf, c.isHighSurrogate_highHalf, Option.isSome_some, Bool.and_true,
    if_pos rfl, scanString_writeUnit hlow ht, c.isHighSurrogate_lowHalf, Bool.false_and,
    if_neg Bool.false_ne_true, Option.bind_some, pair?_halves hc, Option.getD_some]

/-- **How a code point is written**: by a one-letter escape, as itself, by its unit, or by its two
units. -/
theorem writePoint_cases (c : CodePoint) :
    (∃ e : CodePoint, e ≠ 'u' ∧ e.IsPlain ∧ escaped? e = some c ∧
      writePoint c = [CodePoint.ofChar '\\', e]) ∨
    (c ≠ '"' ∧ c ≠ '\\' ∧ c.IsPlain ∧ writePoint c = [c]) ∨
    (c.val < 0x10000 ∧ writePoint c = writeUnit c.val) ∨
    (0x10000 ≤ c.val ∧ writePoint c = writeUnit c.highHalf.val ++ writeUnit c.lowHalf.val) := by
  by_cases hquote : c = '"'
  · subst hquote
    exact .inl ⟨CodePoint.ofChar '"', by decide, by decide, by decide, by decide⟩
  by_cases hback : c = '\\'
  · subst hback
    exact .inl ⟨CodePoint.ofChar '\\', by decide, by decide, by decide, by decide⟩
  by_cases hfeed : c = '\n'
  · subst hfeed
    exact .inl ⟨CodePoint.ofChar 'n', by decide, by decide, by decide, by decide⟩
  by_cases hreturn : c = '\r'
  · subst hreturn
    exact .inl ⟨CodePoint.ofChar 'r', by decide, by decide, by decide, by decide⟩
  by_cases htab : c = '\t'
  · subst htab
    exact .inl ⟨CodePoint.ofChar 't', by decide, by decide, by decide, by decide⟩
  by_cases hbackspace : c.val = 8
  · obtain rfl : c = ⟨8, by decide⟩ := CodePoint.eq_of_val_eq hbackspace
    exact .inl ⟨CodePoint.ofChar 'b', by decide, by decide, by decide, by decide⟩
  by_cases hform : c.val = 12
  · obtain rfl : c = ⟨12, by decide⟩ := CodePoint.eq_of_val_eq hform
    exact .inl ⟨CodePoint.ofChar 'f', by decide, by decide, by decide, by decide⟩
  rw [writePoint, if_neg hquote, if_neg hback, if_neg hfeed, if_neg hreturn, if_neg htab,
    if_neg hbackspace, if_neg hform]
  by_cases hplain : 0x20 ≤ c.val ∧ c.val < 0x7F
  · exact .inr (.inl ⟨hquote, hback, hplain, if_pos hplain⟩)
  rw [if_neg hplain]
  by_cases hunit : c.val < 0x10000
  · exact .inr (.inr (.inl ⟨hunit, if_pos hunit⟩))
  · rw [if_neg hunit]
    exact .inr (.inr (.inr ⟨Nat.not_lt.1 hunit, writeUnits_halves c⟩))

/-- **A written code point is read**, unless it forms a pair with what follows. -/
theorem scanString_writePoint (ht : t ≠ [])
    (hpair : ¬(c.isHighSurrogate = true ∧ (lowHalf? t).isSome = true)) :
    scanString opening none (writePoint c ++ t) = consPoint c (scanString opening none t) := by
  rcases writePoint_cases c with ⟨e, he, -, hletter, hwrite⟩ | ⟨hquote, hback, hplain, hwrite⟩ |
    ⟨hunit, hwrite⟩ | ⟨htwo, hwrite⟩
  · rw [hwrite]
    exact scanString_escape he hletter
  · rw [hwrite]
    exact scanString_self hquote hback hplain.1
  · rw [hwrite, scanString_writeUnit hunit ht, if_neg (by simpa using hpair)]
    rfl
  · rw [hwrite, List.append_assoc]
    exact scanString_halves htwo ht

/-- Another escape begins with no second half. -/
theorem lowHalf?_of_escape (he : e ≠ 'u') :
    ¬(lowHalf? (CodePoint.ofChar '\\' :: e :: t)).isSome = true := by
  rw [lowHalf?.eq_def]
  split
  · rename_i heq
    obtain ⟨-, rfl, -⟩ := by simpa using heq
    rw [if_neg fun h => he h.2]
    exact Bool.false_ne_true
  · exact Bool.false_ne_true

/-- What is no escape begins with no second half. -/
theorem lowHalf?_of_self (hb : c ≠ '\\') : ¬(lowHalf? (c :: t)).isSome = true := by
  rw [lowHalf?.eq_def]
  split
  · rename_i heq
    obtain ⟨rfl, -⟩ := by simpa using heq
    rw [if_neg fun h => hb h.1]
    exact Bool.false_ne_true
  · exact Bool.false_ne_true

/-- Only a second half is written as one. -/
theorem isLowSurrogate_of_lowHalf? (ht : t ≠ [])
    (h : (lowHalf? (writePoint c ++ t)).isSome = true) : c.isLowSurrogate = true := by
  rcases writePoint_cases c with ⟨e, he, -, -, hwrite⟩ | ⟨-, hback, -, hwrite⟩ |
    ⟨hunit, hwrite⟩ | ⟨htwo, hwrite⟩
  · rw [hwrite] at h
    exact absurd h (lowHalf?_of_escape he)
  · rw [hwrite] at h
    exact absurd h (lowHalf?_of_self hback)
  · rw [hwrite, lowHalf?_writeUnit hunit ht] at h
    by_contra hlow
    rw [Option.filter_some, if_neg hlow] at h
    cases h
  · -- a code point of two units begins with a first half
    have hhigh : c.highHalf.val < 0x10000 := c.highHalf_bounds.2.trans (by decide)
    have hne : writeUnit c.lowHalf.val ++ t ≠ [] := by simp [writeUnit_append]
    rw [hwrite, List.append_assoc, lowHalf?_writeUnit hhigh hne, Option.filter_some,
      c.isLowSurrogate_highHalf] at h
    cases h

/-- **A written string is read back**, if it holds no surrogate pair. -/
theorem scanString_writePoints {s : Text} (hs : s.Unpaired) (rest : Text) :
    scanString opening none (s.flatMap writePoint ++ CodePoint.ofChar '"' :: rest) =
      .ok (s, rest) := by
  induction s with
  | nil =>
    rw [List.flatMap_nil, List.nil_append, scanString.eq_def]
    exact if_pos rfl
  | cons c s ih =>
    obtain ⟨hhead, hs⟩ := Text.unpaired_cons.1 hs
    have hpair : ¬(c.isHighSurrogate = true ∧ (lowHalf? (s.flatMap writePoint ++
        CodePoint.ofChar '"' :: rest)).isSome = true) := by
      rintro ⟨hhigh, hlow⟩
      cases s with
      | nil => exact lowHalf?_of_self (by decide) hlow
      | cons d s =>
        rw [List.flatMap_cons, List.append_assoc] at hlow
        exact hhead d rfl ⟨hhigh, isLowSurrogate_of_lowHalf? (by simp) hlow⟩
    rw [List.flatMap_cons, List.append_assoc, scanString_writePoint (by simp) hpair, ih hs]
    rfl

/-! ## Plain writing -/

theorem isPlain_hexDigit (n : Nat) : (Text.hexDigit n).IsPlain := by
  have h : ∀ k < 16, CodePoint.IsPlain (Nat.digitChar k : Char) := by decide
  exact h (n % 16) (Nat.mod_lt n (by decide))

theorem isPlain_writeUnit (n : Nat) : Text.IsPlain (writeUnit n) := by
  intro c h
  rw [← List.append_nil (writeUnit n), writeUnit_append] at h
  simp only [List.mem_cons, List.not_mem_nil, or_false] at h
  rcases h with rfl | rfl | rfl | rfl | rfl | rfl
  · decide
  · decide
  all_goals exact isPlain_hexDigit _

/-- **A code point is written plainly.** -/
theorem isPlain_writePoint (c : CodePoint) : Text.IsPlain (writePoint c) := by
  rcases writePoint_cases c with ⟨e, -, hplain, -, hwrite⟩ | ⟨-, -, hplain, hwrite⟩ |
    ⟨-, hwrite⟩ | ⟨-, hwrite⟩
  · rw [hwrite]
    exact .cons (by decide) (List.forall_mem_singleton.2 hplain)
  · rw [hwrite]
    exact List.forall_mem_singleton.2 hplain
  · rw [hwrite]
    exact isPlain_writeUnit _
  · rw [hwrite]
    exact (isPlain_writeUnit _).append (isPlain_writeUnit _)

/-- **A string is written plainly.** -/
theorem isPlain_writeString (s : Text) : Text.IsPlain (writeString s) := by
  have hpoints : Text.IsPlain (s.flatMap writePoint) := fun c hc => by
    obtain ⟨d, -, hd⟩ := List.mem_flatMap.1 hc
    exact isPlain_writePoint d c hd
  exact (Text.IsPlain.cons (by decide) hpoints).append (by decide)

/-! ## What reading gives -/

theorem consPoint_eq_ok {x : Scan Text} {s r : Text} :
    consPoint c x = .ok (s, r) ↔ ∃ s', x = .ok (s', r) ∧ s = c :: s' := by
  cases x with
  | error e => exact ⟨fun h => (nomatch h), fun ⟨_, h, _⟩ => (nomatch h)⟩
  | ok a =>
    obtain ⟨s', r'⟩ := a
    constructor
    · intro h
      obtain ⟨rfl, rfl⟩ := Prod.mk.inj (Except.ok.inj h)
      exact ⟨s', rfl, rfl⟩
    · rintro ⟨s'', h, rfl⟩
      obtain ⟨rfl, rfl⟩ := Prod.mk.inj (Except.ok.inj h)
      rfl

/-- **A string that is read**, step by step: the half that waits for its pair, the text, the string,
and what follows it. -/
inductive ReadsString : Option CodePoint → Text → Text → Text → Prop
  | close {high r} : ReadsString high (CodePoint.ofChar '"' :: r) [] r
  | hold {high a b x d u t s r} (unit : unit? a b x d = some u) (first : u.isHighSurrogate = true)
      (second : (lowHalf? t).isSome = true) (next : ReadsString (some u) t s r) :
      ReadsString high (CodePoint.ofChar '\\' :: CodePoint.ofChar 'u' :: a :: b :: x :: d :: t)
        s r
  | unit {high a b x d u t s r} (unit : unit? a b x d = some u) (more : t ≠ [])
      (alone : ¬(u.isHighSurrogate = true ∧ (lowHalf? t).isSome = true))
      (next : ReadsString none t s r) :
      ReadsString high (CodePoint.ofChar '\\' :: CodePoint.ofChar 'u' :: a :: b :: x :: d :: t)
        ((high.bind (pair? · u)).getD u :: s) r
  | escape {high e p t s r} (letter : escaped? e = some p) (next : ReadsString none t s r) :
      ReadsString high (CodePoint.ofChar '\\' :: e :: t) (p :: s) r
  | self {high c t s r} (next : ReadsString none t s r) : ReadsString high (c :: t) (c :: s) r

theorem readsString_of_scanString {s r : Text} (h : scanString opening high t = .ok (s, r)) :
    ReadsString high t s r := by
  fun_induction scanString opening high t generalizing s with
  | case1 => cases h
  | case2 =>
    obtain ⟨rfl, rfl⟩ := Prod.mk.inj (Except.ok.inj h)
    exact .close
  | case3 => cases h
  | case4 => cases h
  | case5 => cases h
  | case6 high a b x d t u hu hpair ht _ ih =>
    obtain ⟨hfirst, hsecond⟩ := (Bool.and_eq_true _ _).mp hpair
    rw [if_pos hpair] at h
    exact .hold hu hfirst hsecond (ih h)
  | case7 high a b x d t u hu hpair ht _ ih =>
    rw [if_neg hpair] at h
    obtain ⟨s, hrest, rfl⟩ := consPoint_eq_ok.1 h
    exact .unit hu ht (by simpa using hpair) (ih hrest)
  | case8 => cases h
  | case9 high e t he p hp _ ih =>
    obtain ⟨s, hrest, rfl⟩ := consPoint_eq_ok.1 h
    exact .escape hp (ih hrest)
  | case10 => cases h
  | case11 => cases h
  | case12 high c t _ _ _ ih =>
    obtain ⟨s, hrest, rfl⟩ := consPoint_eq_ok.1 h
    exact .self (ih hrest)

/-- What follows a string is the end of the text. -/
theorem ReadsString.suffix {s r : Text} (h : ReadsString high t s r) : r <:+ t := by
  induction h with
  | close => exact List.suffix_cons _ _
  | hold _ _ _ _ ih => exact ih.trans ⟨[_, _, _, _, _, _], rfl⟩
  | unit _ _ _ _ ih => exact ih.trans ⟨[_, _, _, _, _, _], rfl⟩
  | escape _ _ ih => exact ih.trans ⟨[_, _], rfl⟩
  | self _ ih => exact ih.trans (List.suffix_cons _ _)

/-- The pair of two halves is no half. -/
theorem isSurrogate_of_pair? {hi lo : CodePoint} (h : pair? hi lo = some c) :
    c.isSurrogate = false := by
  rw [pair?] at h
  split at h
  · rw [CodePoint.ofNat?] at h
    split at h
    · obtain rfl := Option.some.inj h
      simp only [CodePoint.isSurrogate, Bool.and_eq_false_iff, decide_eq_false_iff_not]
      omega
    · cases h
  · cases h

theorem isSurrogate_of_escaped? (h : escaped? e = some p) : p.isSurrogate = false := by
  rw [escaped?] at h
  split_ifs at h with h1 h2 h3 h4 h5 h6
  · obtain rfl := Option.some.inj h
    rcases h1 with rfl | rfl | rfl <;> decide
  all_goals
    obtain rfl := Option.some.inj h
    decide

/-- Two halves form a pair. -/
theorem exists_pair? {hi lo : CodePoint} (hhigh : hi.isHighSurrogate = true)
    (hlow : lo.isLowSurrogate = true) : ∃ c, pair? hi lo = some c := by
  have hhi := (CodePoint.isHighSurrogate_iff.1 hhigh).2
  have hlo := (CodePoint.isLowSurrogate_iff.1 hlow).2
  have hlt : 0x10000 + (hi.val - 0xD800) * 0x400 + (lo.val - 0xDC00) < 0x110000 := by omega
  obtain ⟨n, hn⟩ : ∃ n, 0x10000 + (hi.val - 0xD800) * 0x400 + (lo.val - 0xDC00) = n := ⟨_, rfl⟩
  rw [hn] at hlt
  refine ⟨⟨n, hlt⟩, ?_⟩
  rw [pair?, hhigh, hlow, hn]
  exact CodePoint.ofNat?_val ⟨n, hlt⟩

/-- What is no half may stand in front of anything. -/
theorem unpaired_cons_of_not_isSurrogate {s : Text} {P : Prop} (hc : c.isSurrogate = false)
    (hs : s.Unpaired) :
    Text.Unpaired (c :: s) ∧ ∀ d ∈ (c :: s).head?, d.isLowSurrogate = true → P := by
  refine ⟨Text.unpaired_cons.2 ⟨fun d _ => CodePoint.not_pairs hc, hs⟩, fun d hd hlow => ?_⟩
  obtain rfl : c = d := Option.some.inj hd
  rw [CodePoint.isLowSurrogate_eq_false hc] at hlow
  cases hlow

/-- **No surrogate pair is read** from Unicode characters.  While a half waits, the text begins with
the other half, which completes the pair; and nothing else begins with a second half. -/
theorem ReadsString.unpaired {s r : Text} (h : ReadsString high t s r) (ht : t.IsUnicode)
    (hwait : ∀ u ∈ high, u.isHighSurrogate = true ∧ (lowHalf? t).isSome = true) :
    s.Unpaired ∧
      ∀ d ∈ s.head?, d.isLowSurrogate = true → high = none ∧ (lowHalf? t).isSome = true := by
  induction h with
  | close => exact ⟨.nil, fun d hd => (nomatch hd)⟩
  | @hold high a b x y u t s r hu hfirst hsecond _ ih =>
    have hnext := ih (ht.of_suffix ⟨[_, _, _, _, _, _], rfl⟩) fun v hv => by
      obtain rfl := Option.some.inj hv
      exact ⟨hfirst, hsecond⟩
    exact ⟨hnext.1, fun d hd hlow => absurd (hnext.2 d hd hlow).1 (Option.some_ne_none u)⟩
  | @unit high a b x y u t s r hu hmore halone _ ih =>
    obtain ⟨hunpaired, hhead⟩ := ih (ht.of_suffix ⟨[_, _, _, _, _, _], rfl⟩)
      fun v hv => (nomatch hv)
    obtain ⟨c, t, rfl⟩ := List.exists_cons_of_ne_nil hmore
    rw [lowHalf?.eq_1, if_pos ⟨rfl, rfl⟩, hu] at hwait ⊢
    cases high with
    | none =>
      refine ⟨Text.unpaired_cons.2 ⟨fun d hd hpair => ?_, hunpaired⟩, fun d hd hlow => ⟨rfl, ?_⟩⟩
      · exact halone ⟨hpair.1, (hhead d hd hpair.2).2⟩
      · obtain rfl : u = d := Option.some.inj hd
        rw [Option.filter_some, if_pos hlow]
        rfl
    | some v =>
      obtain ⟨hhigh, hlow⟩ := hwait v rfl
      have hlow : u.isLowSurrogate = true := by
        by_contra hnot
        rw [Option.filter_some, if_neg hnot] at hlow
        cases hlow
      obtain ⟨c, hc⟩ := exists_pair? hhigh hlow
      rw [Option.bind_some, hc, Option.getD_some]
      exact unpaired_cons_of_not_isSurrogate (isSurrogate_of_pair? hc) hunpaired
  | escape hletter _ ih =>
    obtain ⟨hunpaired, -⟩ := ih (ht.of_suffix ⟨[_, _], rfl⟩) fun v hv => (nomatch hv)
    exact unpaired_cons_of_not_isSurrogate (isSurrogate_of_escaped? hletter) hunpaired
  | @self high c t s r _ ih =>
    obtain ⟨hunpaired, -⟩ := ih (ht.of_suffix (List.suffix_cons c t)) fun v hv => (nomatch hv)
    exact unpaired_cons_of_not_isSurrogate (ht c List.mem_cons_self) hunpaired

/-- **A string that is read** from Unicode characters holds no surrogate pair. -/
theorem unpaired_of_scanString {s r : Text} (ht : t.IsUnicode)
    (h : scanString opening none t = .ok (s, r)) : s.Unpaired :=
  ((readsString_of_scanString h).unpaired ht fun _ hv => (nomatch hv)).1

end Json
end BuildLint

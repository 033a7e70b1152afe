import BuildLint.Text.Blank
import BuildLint.Text.Utf8
import Mathlib.Data.List.Chain

/-!
# Proofs/Text/CodePoints — surrogate halves, and plain text

A code point above `0xFFFF` has two UTF-16 units, a first half and a second half of a surrogate
pair.  Text of Unicode characters holds no half at all; a string that is read from such text may
hold halves, but never a second one right after a first (`Text.Unpaired`).

Plain text is printable ASCII: a file gives it back as it was written (`Text.IsPlain.decode_encode`,
`Text.IsPlain.unifyLineEnds`).
-/

namespace BuildLint

namespace CodePoint

variable {c d : CodePoint}

theorem eq_of_val_eq (h : c.val = d.val) : c = d := by
  obtain ⟨n, hn⟩ := c
  obtain ⟨m, hm⟩ := d
  obtain rfl : n = m := h
  rfl

theorem ofNat?_val (c : CodePoint) : ofNat? c.val = some c := dif_pos c.val_lt

/-! ## Halves -/

theorem isHighSurrogate_iff : c.isHighSurrogate = true ↔ 0xD800 ≤ c.val ∧ c.val < 0xDC00 := by
  simp [isHighSurrogate]

theorem isLowSurrogate_iff : c.isLowSurrogate = true ↔ 0xDC00 ≤ c.val ∧ c.val < 0xE000 := by
  simp [isLowSurrogate]

theorem isSurrogate_eq_false_iff :
    c.isSurrogate = false ↔ ¬(0xD800 ≤ c.val ∧ c.val < 0xE000) := by
  rw [← Bool.not_eq_true]
  simp [isSurrogate]

/-- A character is no half. -/
@[simp] theorem isSurrogate_ofChar (c : Char) : (ofChar c).isSurrogate = false := by
  have hvalid : c.val.toNat < 0xD800 ∨ 0xDFFF < c.val.toNat ∧ c.val.toNat < 0x110000 := c.valid
  refine isSurrogate_eq_false_iff.2 fun h => ?_
  have h : 0xD800 ≤ c.val.toNat ∧ c.val.toNat < 0xE000 := h
  omega

/-- The first of the two units of a code point that has two. -/
def highHalf (c : CodePoint) : CodePoint := ⟨0xD800 + (c.val - 0x10000) / 0x400, by
  have h := c.val_lt
  omega⟩

/-- The second of the two units. -/
def lowHalf (c : CodePoint) : CodePoint := ⟨0xDC00 + (c.val - 0x10000) % 0x400, by omega⟩

theorem highHalf_bounds (c : CodePoint) : 0xD800 ≤ c.highHalf.val ∧ c.highHalf.val < 0xDC00 := by
  have h := c.val_lt
  simp only [highHalf]
  omega

theorem lowHalf_bounds (c : CodePoint) : 0xDC00 ≤ c.lowHalf.val ∧ c.lowHalf.val < 0xE000 := by
  simp only [lowHalf]
  omega

theorem isHighSurrogate_highHalf (c : CodePoint) : c.highHalf.isHighSurrogate = true :=
  isHighSurrogate_iff.2 c.highHalf_bounds

theorem isLowSurrogate_lowHalf (c : CodePoint) : c.lowHalf.isLowSurrogate = true :=
  isLowSurrogate_iff.2 c.lowHalf_bounds

theorem isLowSurrogate_highHalf (c : CodePoint) : c.highHalf.isLowSurrogate = false := by
  refine Bool.eq_false_iff.2 fun h => ?_
  have hhigh := c.highHalf_bounds
  have hlow := isLowSurrogate_iff.1 h
  omega

theorem isHighSurrogate_lowHalf (c : CodePoint) : c.lowHalf.isHighSurrogate = false := by
  refine Bool.eq_false_iff.2 fun h => ?_
  have hlow := c.lowHalf_bounds
  have hhigh := isHighSurrogate_iff.1 h
  omega

/-- A first half of a surrogate pair, and a second one after it. -/
def Pairs (c d : CodePoint) : Prop := c.isHighSurrogate = true ∧ d.isLowSurrogate = true

/-- What is no half pairs with nothing. -/
theorem not_pairs (hc : c.isSurrogate = false) : ¬c.Pairs d := by
  rintro ⟨hhigh, -⟩
  have hhigh := isHighSurrogate_iff.1 hhigh
  have hc := isSurrogate_eq_false_iff.1 hc
  omega

theorem isLowSurrogate_eq_false (hc : c.isSurrogate = false) : c.isLowSurrogate = false := by
  refine Bool.eq_false_iff.2 fun h => ?_
  have hlow := isLowSurrogate_iff.1 h
  have hc := isSurrogate_eq_false_iff.1 hc
  omega

/-- Printable ASCII. -/
def IsPlain (c : CodePoint) : Prop := 0x20 ≤ c.val ∧ c.val < 0x7F

instance (c : CodePoint) : Decidable c.IsPlain := inferInstanceAs (Decidable (_ ∧ _))

theorem IsPlain.ne_return (h : c.IsPlain) : c ≠ '\r' := by
  rintro rfl
  exact absurd h (by decide)

end CodePoint

namespace Text

/-! ## Unicode text -/

/-- **No surrogate pair**: nowhere does a second half follow a first one. -/
def Unpaired (t : Text) : Prop := t.IsChain fun c d => ¬c.Pairs d

theorem unpaired_cons {c : CodePoint} {t : Text} :
    Unpaired (c :: t) ↔ (∀ d ∈ t.head?, ¬c.Pairs d) ∧ Unpaired t :=
  List.isChain_cons

@[simp] theorem unpaired_singleton (c : CodePoint) : Unpaired [c] := List.isChain_singleton _

/-- Only Unicode characters, so no half of a surrogate pair. -/
def IsUnicode (t : Text) : Prop := ∀ c ∈ t, c.isSurrogate = false

/-- The characters of a string are Unicode characters. -/
@[simp] theorem isUnicode_ofString (s : String) : IsUnicode (ofString s) := by
  intro c hc
  obtain ⟨d, -, rfl⟩ := List.mem_map.1 hc
  exact CodePoint.isSurrogate_ofChar d

/-- Unicode text holds no half, so no pair of halves. -/
theorem IsUnicode.unpaired {t : Text} (h : IsUnicode t) : Unpaired t := by
  induction t with
  | nil => exact .nil
  | cons c t ih =>
    have hc := h c List.mem_cons_self
    have ht := ih fun d hd => h d (List.mem_cons_of_mem c hd)
    exact unpaired_cons.2 ⟨fun d _ => CodePoint.not_pairs hc, ht⟩

/-- The characters of a string hold no pair of halves. -/
@[simp] theorem unpaired_ofString (s : String) : Unpaired (ofString s) :=
  (isUnicode_ofString s).unpaired

theorem IsUnicode.of_suffix {s t : Text} (h : IsUnicode t) (hs : s <:+ t) : IsUnicode s :=
  fun c hc => h c (hs.subset hc)

/-! ## Plain text -/

/-- Only printable ASCII. -/
def IsPlain (t : Text) : Prop := ∀ c ∈ t, c.IsPlain

instance (t : Text) : Decidable t.IsPlain := inferInstanceAs (Decidable (∀ c ∈ t, c.IsPlain))

variable {s t : Text}

theorem IsPlain.append (hs : IsPlain s) (ht : IsPlain t) : IsPlain (s ++ t) := fun c hc =>
  (List.mem_append.1 hc).elim (hs c) (ht c)

theorem IsPlain.cons {c : CodePoint} (hc : c.IsPlain) (ht : IsPlain t) : IsPlain (c :: t) :=
  List.forall_mem_cons.2 ⟨hc, ht⟩

/-- **Bytes of plain text** stand for it. -/
theorem IsPlain.decode_encode (h : IsPlain t) : Utf8.decode (Utf8.encode t) = some t :=
  Utf8.decode_encode_ascii fun c hc => (h c hc).2.trans (by decide)

/-- Plain text is spelled by a string. -/
theorem IsPlain.ofString_toString (h : IsPlain t) : ofString t.toString = t := by
  rw [ofString, Text.toString, String.toList_ofList, List.map_map]
  refine (List.map_congr_left fun c hc => ?_).trans (List.map_id t)
  obtain ⟨hlo, hhi⟩ := h c hc
  have hvalid : c.val.isValidChar := .inl (by omega)
  refine CodePoint.eq_of_val_eq ?_
  rw [Function.comp_apply, CodePoint.toChar, if_neg (by omega), Char.ofNat, dif_pos hvalid]
  rfl

theorem mergeCrLf_of_forall_ne (h : ∀ c ∈ t, c ≠ '\r') : mergeCrLf t = t := by
  induction t with
  | nil => rfl
  | cons c t ih =>
    rw [mergeCrLf, if_neg fun hc => h c List.mem_cons_self hc.1,
      ih fun d hd => h d (List.mem_cons_of_mem c hd)]

/-- **Plain text** is a single line. -/
theorem IsPlain.unifyLineEnds (h : IsPlain t) : Text.unifyLineEnds t = t := by
  have hne : ∀ c ∈ t, c ≠ '\r' := fun c hc => (h c hc).ne_return
  rw [Text.unifyLineEnds, mergeCrLf_of_forall_ne hne, replace]
  exact (List.map_congr_left fun c hc => if_neg (hne c hc)).trans (List.map_id t)

end Text

end BuildLint

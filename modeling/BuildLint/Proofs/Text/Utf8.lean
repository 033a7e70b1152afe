import BuildLint.Proofs.Text.CodePoints

/-!
# Proofs/Text/Utf8 — bytes stand for text exactly if they are its encoding

Decoding is strict: each sequence that it accepts is the one that encoding writes, and no half of a
surrogate pair comes out of it.  So of all byte strings those are decoded that are the bytes of
Unicode text, each to that text.

* `two?_eq_some_iff`, `three?_eq_some_iff`, `four?_eq_some_iff` — one sequence.
* `decode_encodePoint` and `encode_of_decode` — the two directions.
* `decode_eq_some_iff` — decoding is the inverse of encoding.
-/

namespace BuildLint

namespace Utf8

variable {a b x y : UInt8} {c : CodePoint} {bytes : Bytes} {t : Text} {n : Nat}

theorem toUInt8_eq_iff (h : n < 256) : n.toUInt8 = a ↔ a.toNat = n := by
  rw [← UInt8.toNat_inj, Nat.toUInt8_eq, UInt8.toNat_ofNat', Nat.mod_eq_of_lt h]
  exact eq_comm

theorem ofNat?_eq_some_iff : CodePoint.ofNat? n = some c ↔ c.val = n := by
  rw [CodePoint.ofNat?]
  split
  · rw [Option.some.injEq]
    exact ⟨fun h => h ▸ rfl, fun h => CodePoint.eq_of_val_eq h.symm⟩
  · have hc := c.val_lt
    refine iff_of_false ?_ (by omega)
    rintro ⟨⟩

theorem continuation?_eq_some_iff :
    continuation? b = some n ↔ b.toNat = 0x80 + n ∧ n < 64 := by
  rw [continuation?]
  split
  · rw [Option.some.injEq]
    omega
  · have hb := b.toNat_lt
    exact ⟨fun h => (nomatch h), fun h => by omega⟩

/-! ## One sequence -/

theorem encodePoint_eq_two (h : 0x80 ≤ c.val ∧ c.val < 0x800) : encodePoint c = [a, b] ↔
    a.toNat = 0xC0 + c.val / 64 ∧ b.toNat = 0x80 + c.val % 64 := by
  rw [encodePoint, if_neg (by omega), if_pos h.2, List.cons.injEq, List.cons.injEq,
    toUInt8_eq_iff (by omega), toUInt8_eq_iff (by omega), and_iff_left rfl]

theorem encodePoint_eq_three (h : 0x800 ≤ c.val ∧ c.val < 0x10000) : encodePoint c = [a, b, x] ↔
    a.toNat = 0xE0 + c.val / 4096 ∧ b.toNat = 0x80 + c.val / 64 % 64 ∧
      x.toNat = 0x80 + c.val % 64 := by
  rw [encodePoint, if_neg (by omega), if_neg (by omega), if_pos h.2, List.cons.injEq,
    List.cons.injEq, List.cons.injEq, toUInt8_eq_iff (by omega), toUInt8_eq_iff (by omega),
    toUInt8_eq_iff (by omega), and_iff_left rfl]

theorem encodePoint_eq_four (h : 0x10000 ≤ c.val) : encodePoint c = [a, b, x, y] ↔
    a.toNat = 0xF0 + c.val / 262144 ∧ b.toNat = 0x80 + c.val / 4096 % 64 ∧
      x.toNat = 0x80 + c.val / 64 % 64 ∧ y.toNat = 0x80 + c.val % 64 := by
  have hlt := c.val_lt
  rw [encodePoint, if_neg (by omega), if_neg (by omega), if_neg (by omega), List.cons.injEq,
    List.cons.injEq, List.cons.injEq, List.cons.injEq, toUInt8_eq_iff (by omega),
    toUInt8_eq_iff (by omega), toUInt8_eq_iff (by omega), toUInt8_eq_iff (by omega),
    and_iff_left rfl]

/-- **A sequence of two bytes** stands for the code point that it encodes. -/
theorem two?_eq_some_iff : two? a b = some c ↔
    (0x80 ≤ c.val ∧ c.val < 0x800) ∧ encodePoint c = [a, b] := by
  rw [two?, Option.bind_eq_bind, Option.bind_eq_some_iff]
  constructor
  · rintro ⟨n, hn, h⟩
    rw [continuation?_eq_some_iff] at hn
    split at h
    · rw [ofNat?_eq_some_iff] at h
      have hc : 0x80 ≤ c.val ∧ c.val < 0x800 := by omega
      exact ⟨hc, (encodePoint_eq_two hc).2 (by omega)⟩
    · cases h
  · rintro ⟨hc, h⟩
    rw [encodePoint_eq_two hc] at h
    refine ⟨c.val % 64, continuation?_eq_some_iff.2 (by omega), ?_⟩
    rw [if_pos (by omega), ofNat?_eq_some_iff]
    omega

/-- **A sequence of three bytes**, which does not stand for half of a surrogate pair. -/
theorem three?_eq_some_iff : three? a b x = some c ↔
    ((0x800 ≤ c.val ∧ c.val < 0x10000) ∧ c.isSurrogate = false) ∧ encodePoint c = [a, b, x] := by
  rw [CodePoint.isSurrogate_eq_false_iff]
  simp only [three?, Option.bind_eq_bind, Option.bind_eq_some_iff]
  constructor
  · rintro ⟨m, hm, n, hn, h⟩
    rw [continuation?_eq_some_iff] at hm hn
    split at h
    · rw [ofNat?_eq_some_iff] at h
      have hc : 0x800 ≤ c.val ∧ c.val < 0x10000 := by omega
      exact ⟨⟨hc, by omega⟩, (encodePoint_eq_three hc).2 (by omega)⟩
    · cases h
  · rintro ⟨⟨hc, hsurrogate⟩, h⟩
    rw [encodePoint_eq_three hc] at h
    refine ⟨c.val / 64 % 64, continuation?_eq_some_iff.2 (by omega), c.val % 64,
      continuation?_eq_some_iff.2 (by omega), ?_⟩
    rw [if_pos (by omega), ofNat?_eq_some_iff]
    omega

/-- **A sequence of four bytes.** -/
theorem four?_eq_some_iff : four? a b x y = some c ↔
    0x10000 ≤ c.val ∧ encodePoint c = [a, b, x, y] := by
  have hlt := c.val_lt
  simp only [four?, Option.bind_eq_bind, Option.bind_eq_some_iff]
  constructor
  · rintro ⟨l, hl, m, hm, n, hn, h⟩
    rw [continuation?_eq_some_iff] at hl hm hn
    split at h
    · rw [ofNat?_eq_some_iff] at h
      have hc : 0x10000 ≤ c.val := by omega
      exact ⟨hc, (encodePoint_eq_four hc).2 (by omega)⟩
    · cases h
  · rintro ⟨hc, h⟩
    rw [encodePoint_eq_four hc] at h
    refine ⟨c.val / 4096 % 64, continuation?_eq_some_iff.2 (by omega), c.val / 64 % 64,
      continuation?_eq_some_iff.2 (by omega), c.val % 64,
      continuation?_eq_some_iff.2 (by omega), ?_⟩
    rw [if_pos (by omega), ofNat?_eq_some_iff]
    omega

/-! ## All sequences -/

/-- The text that begins with a code point, if there is one, and goes on as bytes say. -/
def readOn (point? : Option CodePoint) (rest : Bytes) : Option Text :=
  point?.bind fun c => (decode rest).map (c :: ·)

theorem readOn_eq_some_iff {point? : Option CodePoint} {rest : Bytes} :
    readOn point? rest = some t ↔
      ∃ c s, point? = some c ∧ decode rest = some s ∧ c :: s = t := by
  simp only [readOn, Option.bind_eq_some_iff, Option.map_eq_some_iff]
  exact exists_congr fun c =>
    ⟨fun ⟨hc, s, hs, ht⟩ => ⟨s, hc, hs, ht⟩, fun ⟨s, hc, hs, ht⟩ => ⟨hc, s, hs, ht⟩⟩

section

variable {rest : Bytes}

theorem bind_bind_eq_readOn (point? : Option CodePoint) (rest : Bytes) :
    (do (← point?) :: (← decode rest)) = readOn point? rest := by
  cases point? with
  | none => rfl
  | some c => cases hrest : decode rest <;> simp [readOn, hrest]

theorem decode_one (ha : a.toNat < 0x80) :
    decode (a :: rest) = readOn (CodePoint.ofNat? a.toNat) rest := by
  rw [decode.eq_def]
  simp only [if_pos ha]
  exact bind_bind_eq_readOn _ _

theorem decode_two (ha : ¬a.toNat < 0x80) (hb : a.toNat < 0xE0) :
    decode (a :: b :: rest) = readOn (two? a b) rest := by
  rw [decode.eq_def]
  simp only [if_neg ha, if_pos hb]
  exact bind_bind_eq_readOn _ _

theorem decode_three (ha : ¬a.toNat < 0x80) (hb : ¬a.toNat < 0xE0) (hx : a.toNat < 0xF0) :
    decode (a :: b :: x :: rest) = readOn (three? a b x) rest := by
  rw [decode.eq_def]
  simp only [if_neg ha, if_neg hb, if_pos hx]
  exact bind_bind_eq_readOn _ _

theorem decode_four (ha : ¬a.toNat < 0x80) (hb : ¬a.toNat < 0xE0) (hx : ¬a.toNat < 0xF0) :
    decode (a :: b :: x :: y :: rest) = readOn (four? a b x y) rest := by
  rw [decode.eq_def]
  simp only [if_neg ha, if_neg hb, if_neg hx]
  exact bind_bind_eq_readOn _ _

/-- **A code point is read back as it was written**, unless it is half of a surrogate pair. -/
theorem decode_encodePoint (hc : c.isSurrogate = false) (rest : Bytes) :
    decode (encodePoint c ++ rest) = (decode rest).map (c :: ·) := by
  have hlt := c.val_lt
  rcases Nat.lt_or_ge c.val 0x80 with h | h
  · exact decode_encodePoint_append h rest
  rcases Nat.lt_or_ge c.val 0x800 with h' | h'
  · obtain ⟨a, b, hab⟩ : ∃ a b, encodePoint c = [a, b] := by
      rw [encodePoint, if_neg (by omega), if_pos h']
      exact ⟨_, _, rfl⟩
    have hbytes := (encodePoint_eq_two ⟨h, h'⟩).1 hab
    rw [hab, List.cons_append, List.cons_append, List.nil_append,
      decode_two (by omega) (by omega), two?_eq_some_iff.2 ⟨⟨h, h'⟩, hab⟩]
    rfl
  rcases Nat.lt_or_ge c.val 0x10000 with h'' | h''
  · obtain ⟨a, b, x, hab⟩ : ∃ a b x, encodePoint c = [a, b, x] := by
      rw [encodePoint, if_neg (by omega), if_neg (by omega), if_pos h'']
      exact ⟨_, _, _, rfl⟩
    have hbytes := (encodePoint_eq_three ⟨h', h''⟩).1 hab
    rw [hab, List.cons_append, List.cons_append, List.cons_append, List.nil_append,
      decode_three (by omega) (by omega) (by omega),
      three?_eq_some_iff.2 ⟨⟨⟨h', h''⟩, hc⟩, hab⟩]
    rfl
  · obtain ⟨a, b, x, y, hab⟩ : ∃ a b x y, encodePoint c = [a, b, x, y] := by
      rw [encodePoint, if_neg (by omega), if_neg (by omega), if_neg (by omega)]
      exact ⟨_, _, _, _, rfl⟩
    have hbytes := (encodePoint_eq_four h'').1 hab
    rw [hab, List.cons_append, List.cons_append, List.cons_append, List.cons_append,
      List.nil_append, decode_four (by omega) (by omega) (by omega),
      four?_eq_some_iff.2 ⟨h'', hab⟩]
    rfl

theorem decode_encode (h : t.IsUnicode) : decode (encode t) = some t := by
  induction t with
  | nil => rfl
  | cons c t ih =>
    rw [encode, List.flatMap_cons, decode_encodePoint (h c List.mem_cons_self), ← encode,
      ih fun d hd => h d (List.mem_cons_of_mem c hd)]
    rfl

/-- Reading on keeps what decoding is about: what is read is Unicode text, and its bytes. -/
theorem encode_of_readOn (head : Bytes) {point? : Option CodePoint} {rest : Bytes}
    (hpoint : ∀ c, point? = some c → c.isSurrogate = false ∧ encodePoint c = head)
    (hrest : ∀ s, decode rest = some s → s.IsUnicode ∧ encode s = rest)
    (h : readOn point? rest = some t) : t.IsUnicode ∧ encode t = head ++ rest := by
  obtain ⟨c, s, hc, hs, rfl⟩ := readOn_eq_some_iff.1 h
  obtain ⟨hsurrogate, hhead⟩ := hpoint c hc
  obtain ⟨hunicode, htail⟩ := hrest s hs
  exact ⟨List.forall_mem_cons.2 ⟨hsurrogate, hunicode⟩, congrArg₂ (· ++ ·) hhead htail⟩

/-- **What is decoded is what was encoded**, and it is Unicode text. -/
theorem encode_of_decode (h : decode bytes = some t) : t.IsUnicode ∧ encode t = bytes := by
  induction bytes using decode.induct generalizing t with
  | case1 =>
    obtain rfl := Option.some.inj h
    exact ⟨fun _ hc => absurd hc List.not_mem_nil, rfl⟩
  | case2 a rest ha ih =>
    rw [decode_one ha] at h
    refine encode_of_readOn [a] (fun c hc => ?_) (fun s => ih) h
    rw [ofNat?_eq_some_iff] at hc
    refine ⟨CodePoint.isSurrogate_eq_false_iff.2 (by omega), ?_⟩
    rw [encodePoint, if_pos (by omega), (toUInt8_eq_iff (by omega)).2 hc.symm]
  | case4 a ha b rest hb ih =>
    rw [decode_two ha hb] at h
    refine encode_of_readOn [a, b] (fun c hc => ?_) (fun s => ih) h
    obtain ⟨hbounds, hbytes⟩ := two?_eq_some_iff.1 hc
    exact ⟨CodePoint.isSurrogate_eq_false_iff.2 (by omega), hbytes⟩
  | case6 a ha b hb x rest hx ih =>
    rw [decode_three ha hb hx] at h
    refine encode_of_readOn [a, b, x] (fun c hc => ?_) (fun s => ih) h
    obtain ⟨⟨-, hsurrogate⟩, hbytes⟩ := three?_eq_some_iff.1 hc
    exact ⟨hsurrogate, hbytes⟩
  | case8 a ha b hb x hx y rest ih =>
    rw [decode_four ha hb hx] at h
    refine encode_of_readOn [a, b, x, y] (fun c hc => ?_) (fun s => ih) h
    obtain ⟨hbound, hbytes⟩ := four?_eq_some_iff.1 hc
    exact ⟨CodePoint.isSurrogate_eq_false_iff.2 (by omega), hbytes⟩
  | case3 a ha => simp [decode, ha] at h
  | case5 a ha b hb => simp [decode, ha, hb] at h
  | case7 a ha b hb x hx => simp [decode, ha, hb, hx] at h

end

/-- **Bytes stand for text** exactly if they are its encoding, and it is Unicode text. -/
theorem decode_eq_some_iff : decode bytes = some t ↔ t.IsUnicode ∧ encode t = bytes := by
  refine ⟨encode_of_decode, ?_⟩
  rintro ⟨h, rfl⟩
  exact decode_encode h

/-- **Bytes stand for no text** exactly if they are the encoding of no Unicode text. -/
theorem decode_eq_none_iff : decode bytes = none ↔ ∀ t, t.IsUnicode → encode t ≠ bytes := by
  rw [Option.eq_none_iff_forall_ne_some]
  exact forall_congr' fun t => by rw [Ne, decode_eq_some_iff, not_and]

end Utf8

end BuildLint

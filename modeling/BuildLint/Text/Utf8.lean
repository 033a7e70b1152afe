import BuildLint.Text.Basic

/-!
# Text/Utf8 — text as bytes

* `encode` — one to four bytes for each code point.
* `decode` — the strict inverse: no overlong form, no half of a surrogate pair, nothing at or above
  `0x110000`.
* `decode_encode_ascii` — ASCII text is read back as it was written.
-/

namespace BuildLint

/-- The content of a file. -/
abbrev Bytes := List UInt8

namespace Utf8

/-- The bytes of one code point. -/
def encodePoint (c : CodePoint) : Bytes :=
  let n := c.val
  if n < 0x80 then [n.toUInt8]
  else if n < 0x800 then [(0xC0 + n / 64).toUInt8, (0x80 + n % 64).toUInt8]
  else if n < 0x10000 then
    [(0xE0 + n / 4096).toUInt8, (0x80 + n / 64 % 64).toUInt8, (0x80 + n % 64).toUInt8]
  else
    [(0xF0 + n / 262144).toUInt8, (0x80 + n / 4096 % 64).toUInt8, (0x80 + n / 64 % 64).toUInt8,
      (0x80 + n % 64).toUInt8]

/-- **The bytes of a text**. -/
def encode (t : Text) : Bytes := t.flatMap encodePoint

/-- The six bits that a continuation byte carries. -/
def continuation? (b : UInt8) : Option Nat :=
  if 0x80 ≤ b.toNat ∧ b.toNat < 0xC0 then some (b.toNat - 0x80) else none

/-- The code point that a sequence with one continuation byte stands for. -/
def two? (a b : UInt8) : Option CodePoint := do
  let y ← continuation? b
  if 0xC2 ≤ a.toNat ∧ a.toNat < 0xE0 then CodePoint.ofNat? ((a.toNat - 0xC0) * 64 + y) else none

/-- The code point that a sequence with two continuation bytes stands for. -/
def three? (a b c : UInt8) : Option CodePoint := do
  let x ← continuation? b
  let y ← continuation? c
  let n := (a.toNat - 0xE0) * 4096 + x * 64 + y
  if 0xE0 ≤ a.toNat ∧ a.toNat < 0xF0 ∧ 0x800 ≤ n ∧ ¬(0xD800 ≤ n ∧ n < 0xE000) then
    CodePoint.ofNat? n
  else none

/-- The code point that a sequence with three continuation bytes stands for. -/
def four? (a b c d : UInt8) : Option CodePoint := do
  let w ← continuation? b
  let x ← continuation? c
  let y ← continuation? d
  let n := (a.toNat - 0xF0) * 262144 + w * 4096 + x * 64 + y
  if 0xF0 ≤ a.toNat ∧ a.toNat < 0xF5 ∧ 0x10000 ≤ n then CodePoint.ofNat? n else none

/-- **The text that bytes stand for**, if they are the encoding of one. -/
def decode : Bytes → Option Text
  | [] => some []
  | a :: rest =>
    if a.toNat < 0x80 then do (← CodePoint.ofNat? a.toNat) :: (← decode rest)
    else match rest with
      | [] => none
      | b :: rest =>
        if a.toNat < 0xE0 then do (← two? a b) :: (← decode rest)
        else match rest with
          | [] => none
          | c :: rest =>
            if a.toNat < 0xF0 then do (← three? a b c) :: (← decode rest)
            else match rest with
              | [] => none
              | d :: rest => do (← four? a b c d) :: (← decode rest)

/-- An ASCII code point is its own byte, read back as it was written. -/
theorem decode_encodePoint_append {c : CodePoint} (h : c.val < 0x80) (rest : Bytes) :
    decode (encodePoint c ++ rest) = (decode rest).map (c :: ·) := by
  have hb : (c.val.toUInt8).toNat = c.val := by
    simp only [Nat.toUInt8_eq, UInt8.toNat_ofNat']; omega
  have hc : CodePoint.ofNat? c.val = some c := by simp [CodePoint.ofNat?, c.val_lt]
  simp only [encodePoint, h, if_true, List.cons_append, List.nil_append]
  rw [decode.eq_def]
  simp only [hb, if_pos h, hc]
  cases decode rest <;> rfl

/-- ASCII text is read back as it was written. -/
theorem decode_encode_ascii {t : Text} (h : ∀ c ∈ t, c.val < 0x80) :
    decode (encode t) = some t := by
  induction t with
  | nil => rfl
  | cons c t ih =>
    rw [encode, List.flatMap_cons, decode_encodePoint_append (h c (by simp)),
      ← encode, ih fun d hd => h d (by simp [hd])]
    rfl

end Utf8

end BuildLint
